import HopVault.HonestRun
import HopVault.RebuildTrace
import HopVault.Directory.Uuid
import HopVault.Directory.WellFormed

/-! # Which hop is to blame

    `identifyFailedHop` searches the text of the error for the positions
    and the node IDs of the hops, the guard's first. The text names the
    faulty hop only if the set-up failed, and then holds its host and what
    it answered as well. -/

namespace HopVault

open Framework Framework.Json Framework.Utf8 Framework.Decimal Framework.Semantics Framework.Prog

/-! ## Circuits and faults -/

/-- The position of a hop. -/
def Role.name : Role → Bytes
  | guard => lit "guard"
  | relay => lit "relay"
  | exit => lit "exit"

/-- The positions that come before one. -/
def Role.before : Role → List Role
  | guard => []
  | relay => [guard]
  | exit => [guard, relay]

/-- The hop at a position. -/
def CircuitResponse.hop (circuit : CircuitResponse) : Role → NodeRecord
  | .guard => circuit.guard
  | .relay => circuit.relay
  | .exit => circuit.exit

/-- The record of a node whose registration the directory has accepted. -/
def NodeRecord.Registered (rec : NodeRecord) : Prop :=
  ∃ reg : Directory.NodeRegistration, reg.Accepted ∧ rec.nodeID = reg.nodeID ∧
    rec.nodeType = reg.nodeType ∧ rec.host = reg.host ∧ rec.port = reg.port ∧
    rec.publicKey = reg.publicKey

/-- A node does not serve an endpoint: its requests get this answer. -/
structure Fault (ν : Type) where
  node : ν
  endpoint : Endpoint
  answer : Result Response

namespace Fault

variable {ν : Type} (f : Fault ν)

/-- The answer is one that stops an attempt: anything but a success with a
    body that can be read. -/
def Fails : Prop :=
  match f.endpoint with
  | .setup => ∀ resp, f.answer = .ok resp → resp.statusCode ≠ statusNoContent
  | .onion => ∀ resp, f.answer = .ok resp → resp.statusCode ≠ statusOK ∨
      decodeStream OnionResponse.fields .zero resp.body = none
  | .key => False

/-- What the node says: the transport error, or the body of its answer. -/
def said : Bytes :=
  match f.answer with
  | .error err => err
  | .ok resp => trimSpace resp.body

end Fault

/-! ## The text of a failure -/

/-- What the client says of a POST that failed. -/
def postFailure (action : Bytes) : Result Response → Bytes
  | .error err => action ++ lit ": " ++ err
  | .ok resp => httpStatusError action resp

/-- What it says of a hop that could not be set up. -/
def setupFailure (rec : NodeRecord) (answer : Result Response) : Bytes :=
  lit "setup key for node " ++ rec.nodeID ++ lit ": " ++
    postFailure (lit "POST /setup to " ++ rec.nodeURL) answer

/-- The words the text of a failed set-up is made of, whatever the hop. -/
def fixedParts : List Bytes :=
  [lit "establish session keys", lit "setup key for node", lit "POST /setup to http:/",
    lit "returned"]

/-- A word that such a text holds only if the hop brings it in. -/
structure Sought (word : Bytes) : Prop where
  ne_nil : word ≠ []
  colon : 58 ∉ word
  space : 32 ∉ word
  slash : 47 ∉ word
  fixed : ∀ part ∈ fixedParts, contains part word = false
  numeral : ∀ i, contains (itoa i) word = false

variable {ν : Type} {word : Bytes}

theorem Sought.head_ne_space (h : Sought word) : word.head? ≠ some 32 := by
  intro hhead
  exact h.space (List.mem_of_mem_head? hhead)

/-- The word can only be in the host of a URL. -/
theorem contains_action (h : Sought word) (rec : NodeRecord) :
    contains (lit "POST /setup to " ++ rec.nodeURL) word = contains rec.host word := by
  have hlit : lit "POST /setup to " ++ lit "http://" = lit "POST /setup to http:/" ++ [47] := by
    decide +kernel
  have hcolon : lit ":" = [58] := by decide
  have hsplit : lit "POST /setup to " ++ rec.nodeURL =
      lit "POST /setup to http:/" ++ 47 :: (rec.host ++ 58 :: itoa rec.port.toInt) := by
    unfold NodeRecord.nodeURL
    rw [hcolon, ← List.append_assoc, ← List.append_assoc, ← List.append_assoc, hlit]
    simp
  rw [hsplit, contains_append_cons h.slash, contains_append_cons h.colon,
    h.fixed _ (by simp [fixedParts]), h.numeral, Bool.or_false, Bool.false_or]

/-- And in what the hop says. -/
theorem contains_postFailure (h : Sought word) (action : Bytes) (f : Fault ν) :
    contains (postFailure action f.answer) word =
      (contains action word || contains f.said word) := by
  have hstatus (code : Int) : contains (action ++ lit " returned " ++ itoa code) word =
      contains action word := by
    -- the word has no space in it, so it lies in one of the parts
    have hlit : lit " returned " = 32 :: (lit "returned" ++ [32]) := by decide +kernel
    have hsplit : action ++ lit " returned " ++ itoa code =
        action ++ 32 :: (lit "returned" ++ 32 :: itoa code) := by
      rw [hlit]
      simp
    rw [hsplit, contains_append_cons h.space, contains_append_cons h.space,
      h.fixed (lit "returned") (by simp [fixedParts]), h.numeral, Bool.or_false, Bool.or_false]
  unfold Fault.said
  cases f.answer with
  | error err => exact contains_colon h.colon h.head_ne_space h.ne_nil action err
  | ok resp =>
    unfold postFailure httpStatusError
    dsimp only
    by_cases hmessage : trimSpace resp.body = []
    · have hnone : contains [] word = false := by
        rw [Bool.eq_false_iff]
        intro hin
        exact h.ne_nil (List.infix_nil.mp (contains_iff.mp hin))
      rw [if_pos hmessage, hstatus, hmessage, hnone, Bool.or_false]
    · rw [if_neg hmessage, contains_colon h.colon h.head_ne_space h.ne_nil, hstatus]

/-- What is searched: the node ID of the hop, its host and what it says. -/
theorem contains_setupFailure (h : Sought word) (rec : NodeRecord) (f : Fault ν) :
    contains (wrap "establish session keys" (setupFailure rec f.answer)) word =
      (contains rec.nodeID word || (contains rec.host word || contains f.said word)) := by
  have hlit : lit "setup key for node " = lit "setup key for node" ++ [32] := by decide +kernel
  have hnode : contains (lit "setup key for node " ++ rec.nodeID) word =
      contains rec.nodeID word := by
    have hsplit : lit "setup key for node " ++ rec.nodeID =
        lit "setup key for node" ++ 32 :: rec.nodeID := by
      rw [hlit]
      simp
    rw [hsplit, contains_append_cons h.space, h.fixed _ (by simp [fixedParts]), Bool.false_or]
  rw [contains_wrap h.colon h.head_ne_space h.ne_nil, h.fixed _ (by simp [fixedParts]),
    Bool.false_or]
  unfold setupFailure
  rw [contains_colon h.colon h.head_ne_space h.ne_nil, hnode, contains_postFailure h,
    contains_action h]

/-! ## The words that are sought -/

/-- The position of a hop. -/
theorem Role.sought (role : Role) : Sought role.name := by
  -- the name begins with a letter, which no number contains
  have hnumeral {x : UInt8} (hx : x ∈ role.name) (hdigit : isDigit x = false) (hminus : x ≠ 45)
      (i : Int) : contains (itoa i) role.name = false := by
    rw [Bool.eq_false_iff]
    intro hin
    have hmem := (contains_iff.mp hin).subset hx
    cases i with
    | ofNat n =>
      rw [isDigit_of_mem_digits hmem] at hdigit
      cases hdigit
    | negSucc n =>
      rcases List.mem_cons.mp hmem with heq | hmem
      · exact hminus heq
      · rw [isDigit_of_mem_digits hmem] at hdigit
        cases hdigit
  cases role with
  | guard =>
    exact ⟨by decide, by decide, by decide, by decide, by decide +kernel,
      hnumeral (x := 103) (by decide) (by decide) (by decide)⟩
  | relay =>
    exact ⟨by decide, by decide, by decide, by decide, by decide +kernel,
      hnumeral (x := 114) (by decide) (by decide) (by decide)⟩
  | exit =>
    exact ⟨by decide, by decide, by decide, by decide, by decide +kernel,
      hnumeral (x := 120) (by decide) (by decide) (by decide)⟩

variable {id id' : Bytes}

/-- The ID of a node. -/
theorem sought_of_isUUID (h : Directory.isUUID id = true) : Sought id := by
  have hlength := (Directory.isUUID_iff.mp h).1
  -- an ID is made of hex digits and hyphens, so it contains none of the separators
  have hsep {x : UInt8} (hascii : x.toNat < 0x80) (hdigit : Directory.isHexDigit x = false)
      (hminus : x ≠ 45) : x ∉ id := by
    intro hx
    rcases Directory.octet_of_isUUID h hx hascii with heq | hhex
    · exact hminus heq
    · rw [Directory.isHexDigit_iff.mpr hhex] at hdigit
      cases hdigit
  constructor
  · rintro rfl
    cases hlength
  · exact hsep (by decide) (by decide) (by decide)
  · exact hsep (by decide) (by decide) (by decide)
  · exact hsep (by decide) (by decide) (by decide)
  · intro part hpart
    -- the fixed parts are ASCII and have no hyphen, and the ID has four of them
    have hplain : ∀ part ∈ fixedParts, (∀ b ∈ part, b.toNat < 0x80) ∧ 45 ∉ part := by
      decide +kernel
    rw [Bool.eq_false_iff]
    intro hin
    exact Directory.not_infix_of_isUUID h (hplain part hpart).1 (hplain part hpart).2
      (contains_iff.mp hin)
  · intro i
    rw [Bool.eq_false_iff]
    intro hin
    exact Directory.not_infix_itoa_of_isUUID h i (contains_iff.mp hin)

/-- An ID holds no position, -/
theorem contains_name_of_isUUID (h : Directory.isUUID id = true) (role : Role) :
    contains id role.name = false := by
  rw [Bool.eq_false_iff]
  intro hin
  have hletter {x : UInt8} (hx : x ∈ role.name) (hascii : x.toNat < 0x80)
      (hdigit : Directory.isHexDigit x = false) (hminus : x ≠ 45) : False := by
    rcases Directory.octet_of_isUUID h ((contains_iff.mp hin).subset hx) hascii with heq | hhex
    · exact hminus heq
    · rw [Directory.isHexDigit_iff.mpr hhex] at hdigit
      cases hdigit
  cases role with
  | guard => exact hletter (x := 103) (by decide) (by decide) (by decide) (by decide)
  | relay => exact hletter (x := 114) (by decide) (by decide) (by decide) (by decide)
  | exit => exact hletter (x := 120) (by decide) (by decide) (by decide) (by decide)

/-- and no other ID. -/
theorem contains_of_isUUID (h : Directory.isUUID id = true) (h' : Directory.isUUID id' = true)
    (hne : id' ≠ id) : contains id id' = false := by
  rw [Bool.eq_false_iff]
  intro hin
  have hlength : id'.length = id.length := by
    rw [(Directory.isUUID_iff.mp h).1, (Directory.isUUID_iff.mp h').1]
  exact hne ((contains_iff.mp hin).eq_of_length hlength)

/-! ## The guess -/

/-- A hop is found in a text. -/
def CircuitResponse.foundIn (circuit : CircuitResponse) (msg : Bytes) (role : Role) : Bool :=
  contains msg role.name || contains msg (circuit.hop role).nodeID

/-- The first hop that is found is blamed. So a hop that is found is blamed
    exactly if none before it is found. -/
theorem identifyFailedHop_iff {circuit : CircuitResponse}
    (hids : ∀ role, (circuit.hop role).nodeID ≠ []) {msg : Bytes} {hop : Role}
    (hfound : circuit.foundIn msg hop = true) :
    identifyFailedHop (some msg) (some circuit) = (hop.name, (circuit.hop hop).nodeID) ↔
      ∀ role ∈ hop.before, circuit.foundIn msg role = false := by
  have hrelay : (circuit.relay.nodeID != []) = true := bne_iff_ne.mpr (hids .relay)
  have hexit : (circuit.exit.nodeID != []) = true := bne_iff_ne.mpr (hids .exit)
  -- the guess is made in the order guard, relay, exit
  have hguess : identifyFailedHop (some msg) (some circuit) =
      if circuit.foundIn msg .guard then (Role.guard.name, circuit.guard.nodeID)
      else if circuit.foundIn msg .relay then (Role.relay.name, circuit.relay.nodeID)
      else if circuit.foundIn msg .exit then (Role.exit.name, circuit.exit.nodeID)
      else (lit "unknown", []) := by
    unfold identifyFailedHop
    dsimp only
    rw [hrelay, hexit, Bool.true_and, Bool.true_and]
    rfl
  have hrelayName : Role.guard.name ≠ Role.relay.name := by decide
  have hexitName : Role.guard.name ≠ Role.exit.name := by decide
  have hexitName' : Role.relay.name ≠ Role.exit.name := by decide
  rw [hguess]
  cases hop with
  | guard => simp [hfound, Role.before, CircuitResponse.hop]
  | relay =>
    by_cases hguard : circuit.foundIn msg .guard = true
    · simp [hguard, hrelayName, Role.before]
    · simp [hguard, hfound, Role.before, CircuitResponse.hop]
  | exit =>
    by_cases hguard : circuit.foundIn msg .guard = true
    · simp [hguard, hexitName, Role.before]
    · by_cases hrelay : circuit.foundIn msg .relay = true
      · simp [hguard, hrelay, hexitName', Role.before]
      · simp [hguard, hrelay, hfound, Role.before, CircuitResponse.hop]

/-- The host of the hop or what it says holds the position or the node ID of
    another. -/
def CircuitResponse.Mentions (circuit : CircuitResponse) (hop role : Role) (said : Bytes) : Prop :=
  ∃ word ∈ [role.name, (circuit.hop role).nodeID],
    contains (circuit.hop hop).host word = true ∨ contains said word = true

/-- The fault is one that the guess tells: the guard's, or one at the set-up
    by which no earlier hop is mentioned. -/
def Attributable (circuit : CircuitResponse) (hop : Role) (f : Fault ν) : Prop :=
  hop = .guard ∨ (f.endpoint = .setup ∧ ∀ role ∈ hop.before, ¬circuit.Mentions hop role f.said)

theorem NodeRecord.Registered.isUUID {rec : NodeRecord} (h : rec.Registered) :
    Directory.isUUID rec.nodeID = true := by
  obtain ⟨reg, hreg, hid, -⟩ := h
  have hvalid := hreg.valid
  unfold Directory.validateNodeRegistration at hvalid
  rw [hid]
  split_ifs at hvalid with _ huuid
  simpa using huuid

variable {circuit : CircuitResponse}

/-- A failed set-up: the faulty hop is found by its ID, any other exactly if
    it is mentioned. -/
theorem foundIn_setupFailure (hregistered : ∀ role, (circuit.hop role).Registered)
    (hids : ∀ role role', (circuit.hop role).nodeID = (circuit.hop role').nodeID → role = role')
    (hop role : Role) (f : Fault ν) :
    circuit.foundIn (wrap "establish session keys" (setupFailure (circuit.hop hop) f.answer)) role =
      true ↔ role = hop ∨ circuit.Mentions hop role f.said := by
  have huuid := (hregistered hop).isUUID
  have huuid' := (hregistered role).isUUID
  unfold CircuitResponse.foundIn CircuitResponse.Mentions
  -- the ID of the failed hop is in the text itself; all else is what the fault says
  rw [contains_setupFailure role.sought, contains_setupFailure (sought_of_isUUID huuid'),
    contains_name_of_isUUID huuid, Bool.false_or]
  by_cases hsame : role = hop
  · subst hsame
    have hself : contains (circuit.hop role).nodeID (circuit.hop role).nodeID = true :=
      contains_iff.mpr List.infix_rfl
    rw [hself]
    simp
  · have hother := contains_of_isUUID huuid huuid' fun hid => hsame (hids _ _ hid)
    rw [hother]
    simp [hsame]

/-- A failed onion: the text holds the word for the guard in any case. -/
theorem foundIn_sendFailure (err : Bytes) : circuit.foundIn (lit "send onion request via guard " ++
    circuit.guard.nodeID ++ lit ": " ++ err) .guard = true := by
  have hword : contains (lit "send onion request via guard ") Role.guard.name = true := by
    decide +kernel
  have hin : Role.guard.name <:+: lit "send onion request via guard " ++ circuit.guard.nodeID ++
      lit ": " ++ err := by
    rw [List.append_assoc, List.append_assoc]
    exact (contains_iff.mp hword).trans (List.prefix_append _ _).isInfix
  unfold CircuitResponse.foundIn
  rw [contains_iff.mpr hin, Bool.true_or]

/-! ## Runs with one faulty hop -/

variable {ι ν : Type} [DecidableEq ι] [DecidableEq ν]

/-- The network with one faulty node. All others do as the code says, and
    every message arrives. -/
def Net.failing (N : Net ν) (f : Fault ν) : Semantics Effects (Loc ι ν) (World ι ν) :=
  ⟨World.act, fun ℓ q =>
    if N.route q.url = some (f.node, f.endpoint) then ((ℓ.1, .node f.node), .ret f.answer)
    else N.serve ℓ q⟩

variable {N : Net ν} {f : Fault ν} {i : ι} {w : World ι ν}

/-- The answer of a hop that is set up. -/
theorem meets_answer {rec : NodeRecord} {n : ν} (hn : N.Honest rec n) {circuitID ct key : Bytes}
    (hcid : circuitID ≠ []) (hct : ct ≠ []) (hdec : N.X.decryptOAEP (N.priv n) ct = .ok key)
    (hlen : key.length = sessionKeySize) {q : Post} (hq : q = jsonPost (rec.nodeURL ++ lit "/setup")
      (KeySetupRequest.json ⟨circuitID, Base64.encode ct⟩).encode) :
    (N.failing f).Meets ((N.failing f).serve (i, .client) q).1
      ((N.failing f).serve (i, .client) q).2 w fun r _ =>
        r = if n = f.node ∧ f.endpoint = .setup then f.answer
          else .ok (writeHeader statusNoContent) := by
  subst hq
  unfold Net.failing jsonPost
  dsimp only
  rw [hn.setupRoute]
  by_cases hfault : n = f.node ∧ f.endpoint = .setup
  · rw [if_pos (by rw [hfault.1, hfault.2]), if_pos hfault]
    exact meets_ret rfl
  · have hother : ¬some (n, Endpoint.setup) = some (f.node, f.endpoint) := by
      intro h
      obtain ⟨hnode, hendpoint⟩ := Prod.mk.inj (Option.some.inj h)
      exact hfault ⟨hnode, hendpoint.symm⟩
    rw [if_neg hother, if_neg hfault]
    simp only [Net.serve, hn.setupRoute, Net.serveAt, perform_eq, op_bind, ret_bind, pure_eq]
    apply meets_any
    intro _ w₁
    unfold Net.handle
    rw [handleSetup_eq hcid hct hdec hlen]
    -- the key is stored, and the line logged
    apply meets_any
    intro _ w₂
    apply meets_any
    intro _ w₃
    exact meets_ret rfl

/-- The set-up of one hop: it succeeds, unless the hop is the faulty one. -/
theorem meets_setUpHop {rec : NodeRecord} {n : ν} (hn : N.Honest rec n) (hfails : f.Fails)
    {circuitID key : Bytes} (hcid : circuitID ≠ []) (hlen : key.length = sessionKeySize)
    {pub : PublicKey} (hpair : N.X.KeyPair pub (N.priv n)) :
    (N.failing f).Meets (i, .client) (sendSetupKey N.X rec.nodeURL circuitID pub key) w fun r _ =>
      r = if n = f.node ∧ f.endpoint = .setup then
          .error (postFailure (lit "POST /setup to " ++ rec.nodeURL) f.answer)
        else .ok () := by
  simp only [sendSetupKey, encryptKey, perform_eq, clientPost_eq, op_bind, rpc_bind, ret_bind,
    pure_eq]
  apply meets_any
  intro seed w₁
  obtain ⟨ct, hct, henc, hdec⟩ := hpair seed.1 key seed.2 hlen
  rw [henc]
  apply meets_any
  intro _ w₂
  refine meets_rpc (meets_answer hn hcid hct hdec hlen rfl) ?_
  intro r w₃ hr
  by_cases hfault : n = f.node ∧ f.endpoint = .setup
  · rw [if_pos hfault] at hr ⊢
    rw [hr]
    unfold Fault.Fails at hfails
    rw [hfault.2] at hfails
    cases hanswer : f.answer with
    | error err => exact meets_ret rfl
    | ok resp =>
      dsimp only
      rw [if_pos (hfails resp hanswer)]
      exact meets_ret rfl
  · rw [if_neg hfault] at hr ⊢
    rw [hr]
    dsimp only [writeHeader]
    rw [if_neg (by decide)]
    exact meets_ret rfl

/-- The hops in order: the faulty one breaks the set-up off, if it is there
    that it is faulty. The induction is on the candidates. -/
theorem meets_setUpHops (hfails : f.Fails) {circuitID : Bytes} (hcid : circuitID ≠ [])
    {cands : List (NodeRecord × Bytes)} {nodes : List ν}
    (h : List.Forall₂ (fun c n => N.Honest c.1 n ∧ c.2.length = sessionKeySize) cands nodes) :
    (N.failing f).Meets (i, .client) (setupCandidates N.X circuitID cands) w fun r _ =>
      if f.node ∈ nodes ∧ f.endpoint = .setup then
        ∃ c, (c, f.node) ∈ cands.zip nodes ∧ r = .error (setupFailure c.1 f.answer)
      else r = .ok () := by
  induction h generalizing w with
  | nil =>
    apply meets_ret
    simp
  | @cons c n cands nodes hc _ ih =>
    obtain ⟨rec, key⟩ := c
    obtain ⟨hn, hlen⟩ := hc
    obtain ⟨pub, hpub, hpair⟩ := hn.publicKey
    simp only [setupCandidates, hpub]
    refine meets_bind (meets_setUpHop hn hfails hcid hlen hpair) ?_
    intro r w₁ hr
    -- either the search ends here, or it goes on
    by_cases hfault : n = f.node ∧ f.endpoint = .setup
    · rw [if_pos hfault] at hr
      rw [hr]
      apply meets_ret
      rw [if_pos ⟨by rw [← hfault.1]; exact List.mem_cons_self, hfault.2⟩]
      refine ⟨(rec, key), ?_, rfl⟩
      rw [hfault.1]
      exact List.mem_cons_self
    · rw [if_neg hfault] at hr
      rw [hr]
      refine ih.weaken ?_
      intro r' w₂ hr'
      have hmem : (f.node ∈ n :: nodes ∧ f.endpoint = .setup) ↔
          (f.node ∈ nodes ∧ f.endpoint = .setup) := by
        rw [List.mem_cons]
        constructor
        · intro h
          rcases h.1 with heq | hin
          · exact absurd ⟨heq.symm, h.2⟩ hfault
          · exact ⟨hin, h.2⟩
        · exact fun h => ⟨.inr h.1, h.2⟩
      by_cases hlater : f.node ∈ nodes ∧ f.endpoint = .setup
      · rw [if_pos hlater] at hr'
        rw [if_pos (hmem.mpr hlater)]
        obtain ⟨c, hc, hr'⟩ := hr'
        exact ⟨c, List.mem_cons_of_mem _ hc, hr'⟩
      · rw [if_neg hlater] at hr'
        rw [if_neg (fun h => hlater (hmem.mp h))]
        exact hr'

/-- The keys that are drawn are long enough. -/
theorem all_generateKeys_proper (hops : Int) : (generateKeys hops).All (fun _ => True)
    (fun _ => False) fun keys => keys.Proper hops := by
  simp only [generateKeys, perform_eq, op_bind, ret_bind, pure_eq]
  refine ⟨trivial, fun g => ?_⟩
  dsimp only
  by_cases h3 : hops = 3
  · rw [if_pos h3]
    exact ⟨trivial, fun r => ⟨trivial, fun e => ⟨g.2, fun _ => ⟨r.2, e.2⟩⟩⟩⟩
  · rw [if_neg h3]
    exact ⟨g.2, fun h => absurd h h3⟩

/-- The set-up of a circuit with one faulty hop. -/
theorem meets_setUp {nodes : Role → ν} {hop : Role}
    (hhonest : ∀ role, N.Honest (circuit.hop role) (nodes role))
    (honly : ∀ role, nodes role = f.node ↔ role = hop) (hfails : f.Fails) {circuitID : Bytes}
    (hcid : circuitID ≠ []) :
    (N.failing f).Meets (i, .client) (setupCircuitWithHops N.X circuitID circuit 3) w fun r _ =>
      if f.endpoint = .setup then r = .error (setupFailure (circuit.hop hop) f.answer)
      else ∃ keys, r = .ok keys := by
  unfold setupCircuitWithHops validateHops
  rw [if_pos (.inr rfl)]
  -- the keys are drawn first, which cannot fail
  refine meets_bind (meets_of_all (I := fun _ => True) (all_generateKeys_proper 3) trivial
    fun _ _ _ _ => trivial) ?_
  intro keys w₁ hkeys
  have hkeys := hkeys.1
  obtain ⟨hr, he⟩ := hkeys.others rfl
  have hcands : List.Forall₂ (fun c n => N.Honest c.1 n ∧ c.2.length = sessionKeySize)
      (candidates circuit keys 3) [nodes .guard, nodes .relay, nodes .exit] :=
    .cons ⟨hhonest .guard, hkeys.guardKey⟩ (.cons ⟨hhonest .relay, hr⟩
      (.cons ⟨hhonest .exit, he⟩ .nil))
  -- the faulty node is one of the hops
  have hmem : f.node ∈ [nodes .guard, nodes .relay, nodes .exit] := by
    rw [← (honly hop).mpr rfl]
    cases hop <;> simp
  refine meets_bind (meets_setUpHops hfails hcid hcands) ?_
  intro r w₂ hr
  by_cases hsetup : f.endpoint = .setup
  · rw [if_pos ⟨hmem, hsetup⟩] at hr
    obtain ⟨c, hc, rfl⟩ := hr
    apply meets_ret
    rw [if_pos hsetup]
    -- the candidate is that of the faulty hop
    have hrec : c.1 = circuit.hop hop := by
      simp only [candidates, if_true, List.zip_cons_cons, List.zip_nil_right, List.mem_cons,
        List.not_mem_nil, or_false, Prod.mk.injEq] at hc
      rcases hc with ⟨rfl, hn⟩ | ⟨rfl, hn⟩ | ⟨rfl, hn⟩
      · rw [← (honly _).mp hn.symm]
        rfl
      · rw [← (honly _).mp hn.symm]
        rfl
      · rw [← (honly _).mp hn.symm]
        rfl
    rw [hrec]
  · rw [if_neg fun h => hsetup h.2] at hr
    subst hr
    apply meets_ret
    rw [if_neg hsetup]
    exact ⟨keys, rfl⟩

/-- The error of an attempt that one faulty hop makes fail. -/
theorem text_of_retry {c : Call} (hhops : c.hops = 3) (hcid : c.circuitID ≠ [])
    {nodes : Role → ν} {hop : Role} (hhonest : ∀ role, N.Honest (circuit.hop role) (nodes role))
    (honly : ∀ role, nodes role = f.node ↔ role = hop) (hfails : f.Fails) {err : Bytes}
    {w' : World ι ν} (hrun : (N.failing f).Returns (i, .client) (attemptCircuit N.X c circuit) w
      (.retry err) w') :
    if f.endpoint = .setup then
      err = wrap "establish session keys" (setupFailure (circuit.hop hop) f.answer)
    else ∃ err', err =
      lit "send onion request via guard " ++ circuit.guard.nodeID ++ lit ": " ++ err' := by
  simp only [attemptCircuit, perform_eq, op_bind, ret_bind, pure_eq] at hrun
  -- the attempt starts with the set-up, whose end is known
  obtain ⟨keys, w₁, hsetup, hrest⟩ := returns_bind.mp hrun
  rw [hhops] at hsetup
  have hkeys := meets_setUp hhonest honly hfails hcid _ _ hsetup
  dsimp only at hkeys
  by_cases hend : f.endpoint = .setup
  · rw [if_pos hend] at hkeys ⊢
    subst hkeys
    obtain ⟨hret, -⟩ := returns_ret.mp hrest
    exact Outcome.retry.inj hret
  · rw [if_neg hend] at hkeys ⊢
    obtain ⟨keys, rfl⟩ := hkeys
    -- after the set-up only the send makes the loop go on
    obtain ⟨payload, w₂, hbuild, hrest⟩ := returns_bind.mp (returns_op.mp hrest)
    cases payload with
    | error e =>
      obtain ⟨hret, -⟩ := returns_ret.mp hrest
      cases hret
    | ok payload =>
      obtain ⟨resp, w₃, hsend, hrest⟩ := returns_bind.mp (returns_op.mp hrest)
      cases resp with
      | error e =>
        obtain ⟨hret, -⟩ := returns_ret.mp hrest
        exact ⟨e, Outcome.retry.inj hret⟩
      | ok resp =>
        dsimp only at hrest
        split at hrest
        · obtain ⟨hret, -⟩ := returns_ret.mp hrest
          cases hret
        · obtain ⟨hret, -⟩ := returns_ret.mp hrest
          cases hret

/-! ## What is recorded -/

/-- What an event says about the failure. -/
def RebuildEvent.failed (evt : RebuildEvent) : Bytes × Bytes := (evt.failedHop, evt.failedNodeID)

/-- The failure of an attempt on `circuit` with the error `err` is recorded
    as that of `failed`, when the next attempt begins and in what the call
    returns, however it goes on. -/
structure Records (X : Externals) (c : Call) (maxAttempts attempt : Int)
    (events : List RebuildEvent) (err : Bytes) (circuit : CircuitResponse)
    (failed : Bytes × Bytes) : Prop where
  begun : ∀ τ events', Path (beginRebuild (attempt + 1) maxAttempts events (some err)
    (some circuit)) τ events' → events'.map (·.failed) = events.map (·.failed) ++ [failed]
  returned : ∀ left τ result, Path (runAttempts X c maxAttempts left (attempt + 1) events
    (some err) (some circuit)) τ (.ok result) →
      events.map (·.failed) ++ [failed] <+: result.rebuildEvents.map (·.failed)

section

variable {X : Externals} {c : Call} {maxAttempts attempt : Int} {events events' : List RebuildEvent}
  {lastErr : Option Bytes} {lastCircuit : Option CircuitResponse} {τ : List (Interaction Effects)}

/-- An event is appended, unless the attempt is the first. -/
theorem failed_beginRebuild
    (h : Path (beginRebuild attempt maxAttempts events lastErr lastCircuit) τ events') :
    events'.map (·.failed) =
      if attempt > 1 then events.map (·.failed) ++ [identifyFailedHop lastErr lastCircuit]
      else events.map (·.failed) := by
  unfold beginRebuild at h
  by_cases hlater : attempt > 1
  · rw [if_pos hlater] at h ⊢
    obtain ⟨t, τ₁, -, hlog⟩ := path_op.mp h
    obtain ⟨_, τ₂, -, hret⟩ := path_op.mp hlog
    obtain ⟨-, rfl⟩ := path_ret.mp hret
    rw [List.map_append]
    rfl
  · rw [if_neg hlater] at h ⊢
    obtain ⟨-, rfl⟩ := path_ret.mp h
    rfl

/-- The end of an attempt changes nothing about the failures. -/
theorem failed_finishRebuild {success : Bool} (h : Path (finishRebuild success events) τ events') :
    events'.map (·.failed) = events.map (·.failed) := by
  unfold finishRebuild at h
  cases hlast : events.getLast? with
  | none =>
    rw [hlast] at h
    obtain ⟨-, rfl⟩ := path_ret.mp h
    rfl
  | some evt =>
    rw [hlast] at h
    obtain ⟨doneAt, τ₁, -, hlater⟩ := path_op.mp h
    obtain ⟨later, τ₂, -, hret⟩ := path_op.mp hlater
    obtain ⟨-, rfl⟩ := path_ret.mp hret
    obtain ⟨front, rfl⟩ := List.getLast?_eq_some_iff.mp hlast
    rw [List.dropLast_concat, List.map_append, List.map_append]
    rfl

/-- A call returns all failures that it has recorded. The induction is on
    the attempts that are left. -/
theorem failed_runAttempts {left : Nat} {result : CircuitResult}
    (h : Path (runAttempts X c maxAttempts left attempt events lastErr lastCircuit) τ (.ok result)) :
    ∃ τ' events', Path (beginRebuild attempt maxAttempts events lastErr lastCircuit) τ' events' ∧
      events'.map (·.failed) <+: result.rebuildEvents.map (·.failed) := by
  -- induction on the attempts left; the record of the first failure stays in front
  induction left generalizing attempt events lastErr lastCircuit τ with
  | zero =>
    obtain ⟨-, hret⟩ := path_ret.mp h
    cases hret
  | succ left ih =>
    simp only [runAttempts, perform_eq, op_bind, ret_bind, pure_eq] at h
    obtain ⟨events', τ₁, τ₂, -, hbegin, hrest⟩ := path_bind.mp h
    refine ⟨τ₁, events', hbegin, ?_⟩
    obtain ⟨_, τ₃, -, hfetch⟩ := path_op.mp hrest
    obtain ⟨fetched, τ₄, τ₅, -, -, hrest⟩ := path_bind.mp hfetch
    cases fetched with
    | error err =>
      obtain ⟨-, hret⟩ := path_ret.mp hrest
      cases hret
    | ok circuit =>
      obtain ⟨outcome, τ₆, τ₇, -, -, hend⟩ := path_bind.mp hrest
      obtain ⟨_, τ₈, -, hend⟩ := path_op.mp hend
      cases outcome with
      | retry err =>
        obtain ⟨events₂, τ₉, τ₁₀, -, hfinish, hrest⟩ := path_bind.mp hend
        obtain ⟨τ', events₃, hbegin', hkept⟩ := ih hrest
        -- neither beginning nor finishing a rebuild takes a record away
        rw [failed_beginRebuild hbegin', failed_finishRebuild hfinish] at hkept
        split_ifs at hkept
        · exact (List.prefix_append _ _).trans hkept
        · exact hkept
      | fail err =>
        obtain ⟨-, hret⟩ := path_ret.mp hend
        cases hret
      | done resp =>
        obtain ⟨events₂, τ₉, τ₁₀, -, hfinish, hret⟩ := path_bind.mp hend
        obtain ⟨-, hret⟩ := path_ret.mp hret
        rw [(Except.ok.inj hret)]
        dsimp only
        rw [failed_finishRebuild hfinish]

/-- What is recorded is the guess, and nothing else. -/
theorem records_iff {err : Bytes} {circuit : CircuitResponse} {failed : Bytes × Bytes}
    (hattempt : 1 ≤ attempt) : Records X c maxAttempts attempt events err circuit failed ↔
      identifyFailedHop (some err) (some circuit) = failed := by
  have hlater : attempt + 1 > 1 := by omega
  constructor
  · intro h
    -- the next attempt records the failure as it begins
    have hpath : ∃ τ events', Path (beginRebuild (attempt + 1) maxAttempts events (some err)
        (some circuit)) τ events' := by
      unfold beginRebuild
      rw [if_pos hlater]
      exact ⟨_, _, .op (x := (0 : Int)) (.op (x := ()) .ret)⟩
    obtain ⟨τ, events', hpath⟩ := hpath
    have hbegun := h.begun τ events' hpath
    rw [failed_beginRebuild hpath, if_pos hlater, List.append_cancel_left_eq] at hbegun
    exact List.singleton_injective hbegun
  · rintro rfl
    constructor
    · intro τ events' hbegin
      rw [failed_beginRebuild hbegin, if_pos hlater]
    · intro left τ result h
      obtain ⟨τ', events', hbegin, hkept⟩ := failed_runAttempts h
      rw [failed_beginRebuild hbegin, if_pos hlater] at hkept
      exact hkept

end

/-! ## Attribution -/

/-- **Attribution of failures**: on a circuit of registered nodes of which
    one is faulty, the event of a failed attempt names this hop exactly if
    the hop is the guard, or failed at the set-up and mentions no hop
    before it. -/
theorem failure_attributed {c : Call} (hhops : c.hops = 3) (hcid : c.circuitID ≠ [])
    (hregistered : ∀ role, (circuit.hop role).Registered)
    (hids : ∀ role role', (circuit.hop role).nodeID = (circuit.hop role').nodeID → role = role')
    {nodes : Role → ν} {hop : Role} (hhonest : ∀ role, N.Honest (circuit.hop role) (nodes role))
    (honly : ∀ role, nodes role = f.node ↔ role = hop) (hfails : f.Fails) {err : Bytes}
    {w' : World ι ν} (hrun : (N.failing f).Returns (i, .client) (attemptCircuit N.X c circuit) w
      (.retry err) w')
    {maxAttempts attempt : Int} (hattempt : 1 ≤ attempt) (events : List RebuildEvent) :
    Records N.X c maxAttempts attempt events err circuit (hop.name, (circuit.hop hop).nodeID) ↔
      Attributable circuit hop f := by
  have hne (role : Role) : (circuit.hop role).nodeID ≠ [] :=
    (sought_of_isUUID (hregistered role).isUUID).ne_nil
  have htext := text_of_retry hhops hcid hhonest honly hfails hrun
  rw [records_iff hattempt]
  unfold Attributable
  by_cases hsetup : f.endpoint = .setup
  · rw [if_pos hsetup] at htext
    have hfound := foundIn_setupFailure hregistered hids hop (f := f)
    rw [htext, identifyFailedHop_iff hne ((hfound hop).mpr (.inl rfl))]
    -- a hop before the faulty one is found exactly if it is mentioned
    have hbefore : ∀ role ∈ hop.before, role ≠ hop := by
      cases hop <;> decide
    have hnot (role : Role) (hrole : role ∈ hop.before) : circuit.foundIn
        (wrap "establish session keys" (setupFailure (circuit.hop hop) f.answer)) role = false ↔
        ¬circuit.Mentions hop role f.said := by
      rw [← Bool.not_eq_true, hfound role]
      constructor
      · exact fun h hm => h (.inr hm)
      · exact fun h hm => h (hm.resolve_left (hbefore role hrole))
    constructor
    · intro h
      exact .inr ⟨hsetup, fun role hrole => (hnot role hrole).mp (h role hrole)⟩
    · intro h role hrole
      rcases h with rfl | h
      · cases hrole
      · exact (hnot role hrole).mpr (h.2 role hrole)
  · rw [if_neg hsetup] at htext
    obtain ⟨err', rfl⟩ := htext
    -- the guard is blamed
    have hguard := @foundIn_sendFailure circuit err'
    have hguess := (identifyFailedHop_iff hne hguard).mpr (by simp [Role.before])
    rw [hguess]
    constructor
    · intro h
      left
      have hname := (Prod.mk.inj h).1
      cases hop with
      | guard => rfl
      | relay => exact absurd hname (by decide)
      | exit => exact absurd hname (by decide)
    · intro h
      rcases h with rfl | h
      · rfl
      · exact absurd h.1 hsetup

namespace Sample

/-- Registrations of the three nodes. -/
def enrolled : Node → Directory.NodeRegistration
  | .guard => ⟨lit "123e4567-e89b-42d3-a456-426614174001", lit "guard", host .guard, 1, host .guard⟩
  | .relay => ⟨lit "123e4567-e89b-42d3-a456-426614174002", lit "relay", host .relay, 1, host .relay⟩
  | .exit => ⟨lit "123e4567-e89b-42d3-a456-426614174003", lit "exit", host .exit, 1, host .exit⟩

/-- And the record of each. -/
def enrolledRecord (n : Node) : NodeRecord :=
  ⟨(enrolled n).nodeID, (enrolled n).nodeType, (enrolled n).host, (enrolled n).port,
    (enrolled n).publicKey, NodeRecord.zeroTime, []⟩

def enrolledCircuit : CircuitResponse :=
  ⟨enrolledRecord .guard, enrolledRecord .relay, enrolledRecord .exit⟩

theorem hop_enrolledCircuit (role : Role) : enrolledCircuit.hop role = enrolledRecord role := by
  cases role <;> rfl

theorem registered (role : Role) : (enrolledCircuit.hop role).Registered := by
  rw [hop_enrolledCircuit]
  refine ⟨enrolled role, ⟨?_, ⟨?_, ?_, ?_, ?_⟩⟩, rfl, rfl, rfl, rfl, rfl⟩
  all_goals cases role <;> decide +kernel

theorem distinctIDs (role role' : Role)
    (h : (enrolledCircuit.hop role).nodeID = (enrolledCircuit.hop role').nodeID) : role = role' := by
  revert h
  cases role <;> cases role' <;> decide +kernel

theorem enrolled_honest (role : Role) : net.Honest (enrolledCircuit.hop role) role := by
  have h := honest role
  have hsame : (enrolledRecord role).host = (record role).host ∧
      (enrolledRecord role).port = (record role).port := by
    cases role <;> exact ⟨rfl, rfl⟩
  have hurl : (enrolledRecord role).nodeURL = (record role).nodeURL := by
    unfold NodeRecord.nodeURL
    rw [hsame.1, hsame.2]
  have haddr : (enrolledRecord role).addr = (record role).addr := by
    unfold NodeRecord.addr
    rw [hsame.1, hsame.2]
  rw [hop_enrolledCircuit]
  refine ⟨hurl ▸ h.setupRoute, hurl ▸ h.onionRoute, ?_, haddr ▸ h.addr⟩
  refine ⟨host role, ?_, keyPair (host role)⟩
  cases role <;> rfl

/-- The relay is down. -/
def down (endpoint : Endpoint) : Fault Node := ⟨.relay, endpoint, .error (lit "connection refused")⟩

theorem down_fails {endpoint : Endpoint} (h : endpoint ≠ .key) : (down endpoint).Fails := by
  cases endpoint with
  | key => exact absurd rfl h
  | setup =>
    intro resp hresp
    cases hresp
  | onion =>
    intro resp hresp
    cases hresp

/-- An attempt that fails at the relay. -/
def failedAt (endpoint : Endpoint) : Option Outcome :=
  ((net.failing (down endpoint)).exec 4 ((), .client) (attemptCircuit externals call enrolledCircuit)
    start).map (·.1)

end Sample

/-- The relay cannot be reached at the set-up. -/
theorem failure_attributed_sample : ∃ err w',
    (Sample.net.failing (Sample.down .setup)).Returns ((), .client)
      (attemptCircuit Sample.externals Sample.call Sample.enrolledCircuit) Sample.start
      (.retry err) w' ∧
    Attributable Sample.enrolledCircuit .relay (Sample.down .setup) ∧
    Records Sample.externals Sample.call 3 1 [] err Sample.enrolledCircuit
      (lit "relay", lit "123e4567-e89b-42d3-a456-426614174002") := by
  have hexec : Sample.failedAt .setup = some (.retry (lit ("establish session keys: setup key " ++
      "for node 123e4567-e89b-42d3-a456-426614174002: POST /setup to http://r:1: " ++
      "connection refused"))) := by
    decide +kernel
  obtain ⟨⟨_, w'⟩, hrun, rfl⟩ := Option.map_eq_some_iff.mp hexec
  have hreturns := returns_of_exec hrun
  have hcond : Attributable Sample.enrolledCircuit .relay (Sample.down .setup) := by
    refine .inr ⟨rfl, ?_⟩
    unfold CircuitResponse.Mentions
    decide +kernel
  refine ⟨_, w', hreturns, hcond, ?_⟩
  exact (failure_attributed rfl (by decide) Sample.registered Sample.distinctIDs
    Sample.enrolled_honest (fun role => Iff.rfl) (Sample.down_fails (by decide)) hreturns (by decide)
    []).mpr hcond

/-- A relay that is dead when the onion reaches it, and the guard is
    blamed. -/
theorem relay_blamed_on_guard : ∃ err w',
    (∀ role, (Sample.enrolledCircuit.hop role).Registered) ∧
    (∀ role, Sample.net.Honest (Sample.enrolledCircuit.hop role) role) ∧
    (Sample.down .onion).Fails ∧ (Sample.down .onion).node = .relay ∧
    (Sample.net.failing (Sample.down .onion)).Returns ((), .client)
      (attemptCircuit Sample.externals Sample.call Sample.enrolledCircuit) Sample.start
      (.retry err) w' ∧
    Records Sample.externals Sample.call 3 1 [] err Sample.enrolledCircuit
      (lit "guard", lit "123e4567-e89b-42d3-a456-426614174001") ∧
    ¬Records Sample.externals Sample.call 3 1 [] err Sample.enrolledCircuit
      (lit "relay", lit "123e4567-e89b-42d3-a456-426614174002") := by
  have hexec : Sample.failedAt .onion = some (.retry (lit ("send onion request via guard " ++
      "123e4567-e89b-42d3-a456-426614174001: POST /onion to http://g:1 returned 502: " ++
      "next hop unreachable"))) := by
    decide +kernel
  obtain ⟨⟨_, w'⟩, hrun, rfl⟩ := Option.map_eq_some_iff.mp hexec
  have hguard : identifyFailedHop (some (lit ("send onion request via guard " ++
      "123e4567-e89b-42d3-a456-426614174001: POST /onion to http://g:1 returned 502: " ++
      "next hop unreachable")))
      (some Sample.enrolledCircuit) = (lit "guard", lit "123e4567-e89b-42d3-a456-426614174001") := by
    decide +kernel
  refine ⟨_, w', Sample.registered, Sample.enrolled_honest, Sample.down_fails (by decide), rfl,
    returns_of_exec hrun, ?_, ?_⟩
  · exact (records_iff (by decide)).mpr hguard
  · rw [records_iff (by decide), hguard]
    decide

end HopVault
