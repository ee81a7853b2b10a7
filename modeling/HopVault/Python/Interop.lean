import HopVault.Deployment
import HopVault.Python.OnionFormat
import HopVault.Python.SetUp

/-! # The Python client and the servers in Go

    What the Python client and the servers, which are written in Go, read of
    each other's messages: the directory's answer is the same circuit to
    both clients, and a node serves a request of either alike. -/

namespace HopVault.Python

open Framework Framework.Utf8 Framework.Json Framework.Prog Framework.Semantics

variable {ι ν : Type}

/-! ## Libraries -/

/-- What the Python libraries read in what the nodes and the directory have
    written. -/
structure Libs.Agrees (P : Libs) (N : Net ν) : Prop where
  /-- `Response.json` of an object that Go has written is `json.loads`. -/
  json : ∀ ms, Wf (obj ms) →
    P.responseJson (encode (obj ms) ++ [10]) = loads (encode (obj ms) ++ [10])
  /-- The key of a node of the network is the same to both. -/
  key : ∀ rec, N.Up rec → ∀ pub, parsePublicKey N.X rec.publicKey = .ok pub →
    P.loadPublicKey rec.publicKey = some pub

/-- `json.loads` of an object that Go writes, with the line end behind it. -/
theorem loads_line {ms : List (Bytes × Json)} (h : Wf (obj ms)) :
    loads (encode (obj ms) ++ [10]) = some (coerced (obj ms)) := by
  have htext : decodeText (encode (obj ms) ++ [10]) = some (encode (obj ms) ++ [10]) := by
    have hutf8 : utf8 (encode (obj ms) ++ [10]) = some (encode (obj ms) ++ [10]) := by
      unfold utf8
      rw [if_pos (isText_of_valid ((valid_encode h).append (valid_lit (s := [10]) (by decide))))]
    rw [← hutf8]
    cases ms with
    | nil => exact decodeText_ascii (by decide) (by decide)
    | cons m ms => exact decodeText_ascii (by decide) (by decide)
  unfold loads
  rw [htext, Option.bind_some, encode_eq_write, coerced_eq_mapTexts]
  exact read_write_pad encoderStyle_readBy_scanner h (allTexts_true _)
    (numEnd_cons (by decide) []) (by simp; decide)

theorem Libs.Agrees.responseJson {P : Libs} {N : Net ν} (hP : P.Agrees N)
    {ms : List (Bytes × Json)} (h : Wf (obj ms)) :
    P.responseJson (encode (obj ms) ++ [10]) = some (coerced (obj ms)) :=
  (hP.json ms h).trans (loads_line h)

/-! ## Requests -/

theorem decodeStream_dumps {T : Type} {fs : List (RecordField T)} {zero : T} {j : Json} (h : Wf j)
    (hj : AllTexts Valid j) : decodeStream fs zero (dumps j) = fill false fs j zero := by
  have hgap : ∀ b ∈ [(32 : UInt8)], isWs b = true := List.forall_mem_singleton.mpr (by decide)
  have hread := readPrefix_write (dumpsStyle_readBy hgap) h hj numEnd_nil
  rw [List.append_nil, mapTexts_eq_self (f := id) (fun _ _ => rfl) j hj] at hread
  have hparse : parsePrefix (dumps j) = some (j, []) := by
    rw [parsePrefix, (parse_eq_read _).1]
    exact hread
  unfold decodeStream
  rw [hparse]

section

variable {circuitID : Bytes}

/-- A node reads the key-setup request of the Python client, -/
theorem decode_setupPost (hcid : Valid circuitID) (url ct : Bytes) :
    decodeStream KeySetupRequest.fields .zero (setupPost url circuitID ct).body =
      some ⟨circuitID, Base64.encode ct⟩ := by
  let body := obj [(lit "circuitId", str circuitID), (lit "encryptedKey", str (Base64.encode ct))]
  have hwf : Wf body := ⟨trivial, trivial, trivial⟩
  have htext : AllTexts Valid body :=
    ⟨valid_lit (by decide), hcid, valid_lit (by decide), toValid_base64 ct, trivial⟩
  show decodeStream _ _ (dumps body) = _
  rw [decodeStream_dumps hwf htext]
  rfl

/-- and its onion. -/
theorem decode_onionPost (hcid : Valid circuitID) (url payload : Bytes) :
    decodeStream OnionRequest.fields .zero (onionPost url circuitID payload).body =
      some ⟨circuitID, payload⟩ := by
  let body := obj [(lit "circuitId", str circuitID), (lit "payload", str (Base64.encode payload))]
  have hwf : Wf body := ⟨trivial, trivial, trivial⟩
  have htext : AllTexts Valid body :=
    ⟨valid_lit (by decide), hcid, valid_lit (by decide), toValid_base64 payload, trivial⟩
  show decodeStream _ _ (dumps body) = _
  rw [decodeStream_dumps hwf htext]
  have hid : findField OnionRequest.fields (lit "circuitId") = some (.of "circuitId" asString
      (·.circuitID) (fun v r => { r with circuitID := v })) := rfl
  have hpayload : findField OnionRequest.fields (lit "payload") = some (.of "payload" asBytes
      (·.payload) (fun v r => { r with payload := v })) := rfl
  have hbytes (cur : Bytes) : asBytes (str (Base64.encode payload)) cur = some payload :=
    Base64.decode_encode payload
  show fillMembers false OnionRequest.fields [(lit "circuitId", str circuitID),
    (lit "payload", str (Base64.encode payload))] .zero = _
  simp only [fillMembers, hid, hpayload, RecordField.of, asString, hbytes, Option.map_some]

/-- A node serves the key-setup request of the Python client as it would
    serve one of the Go client, -/
theorem handle_setupPost (N : Net ν) (hcid : Valid circuitID) (n : ν) (addr url ct : Bytes) :
    N.handle n .setup ⟨methodPost, addr, (setupPost url circuitID ct).body⟩ =
      N.handle n .setup ⟨methodPost, addr,
        (KeySetupRequest.json ⟨circuitID, Base64.encode ct⟩).encode⟩ := by
  have htext : toValid circuitID = circuitID := hcid
  simp only [Net.handle, handleSetup, decode_setupPost hcid, decode_keySetupRequest, htext]

/-- and its onion, whatever the node is. -/
theorem handle_onionPost (N : Net ν) (hcid : Valid circuitID) (n : ν) (addr url payload : Bytes) :
    N.handle n .onion ⟨methodPost, addr, (onionPost url circuitID payload).body⟩ =
      N.handle n .onion ⟨methodPost, addr, (OnionRequest.json ⟨circuitID, payload⟩).encode⟩ := by
  have htext : toValid circuitID = circuitID := hcid
  cases hrole : N.role n <;>
    simp only [Net.handle, hrole, Handler.handleOnion, ExitHandler.handleOnion,
      decode_onionPost hcid, decode_onionRequest, htext]

end

/-! ## Layers -/

/-- Members without a field are passed over. -/
theorem fillMembers_none {T : Type} {fs : List (RecordField T)} {ms : List (Bytes × Json)}
    (h : ∀ m ∈ ms, findField fs m.1 = none) (a : T) : fillMembers false fs ms a = some a := by
  induction ms with
  | nil => rfl
  | cons m ms ih =>
    obtain ⟨hm, hms⟩ := List.forall_mem_cons.mp h
    obtain ⟨k, v⟩ := m
    simp only [fillMembers, hm, Bool.false_eq_true, if_false]
    exact ih hms

/-- A forwarding hop reads the dict of an exit layer as a layer without a
    next hop. -/
theorem unmarshal_dict_as_layer {dict : Json} {l : ExitLayer} (h : SameLayer dict l) (htext : l.Text) :
    unmarshal Layer.fields .zero (dumpsCompact dict) = some .zero := by
  obtain ⟨ms, order, body, rfl, hms, horder, hbody⟩ := h
  have hbodyText : Wf body ∧ AllTexts Valid body := by
    rcases hbody with rfl | ⟨rfl, -⟩
    · exact ⟨trivial, toValid_base64 l.body⟩
    · exact ⟨trivial, trivial⟩
  obtain ⟨hwf, hvalid⟩ := valid_dict hms horder htext hbodyText.1 hbodyText.2
  rw [unmarshal_dumps hwf hvalid]
  refine fillMembers_none (fun m hm => ?_) _
  have hm := hms.mem_iff.mp hm
  simp only [List.mem_cons, List.not_mem_nil, or_false] at hm
  rcases hm with rfl | rfl | rfl | rfl <;> rfl

/-! ## Circuits -/

/-- A hop of a circuit in both languages: its address, and its key. -/
structure SameHop (P : Libs) (circuit : Json) (hop : String) (rec : NodeRecord) : Prop where
  node : ∃ node, subscript P circuit hop = .ok node ∧ SameNode P node rec ∧
    subscript P node "publicKey" = .ok (str rec.publicKey)
  text : Valid rec.publicKey

/-- A circuit in both languages. -/
structure SameCircuit (P : Libs) (hops : Int) (circuit : Json) (c : CircuitResponse) : Prop where
  guard : SameHop P circuit "guard" c.guard
  relay : hops = 3 → SameHop P circuit "relay" c.relay
  exit : hops = 3 → SameHop P circuit "exit" c.exit

variable {P : Libs} {circuit : Json} {c : CircuitResponse} {hops : Int}

theorem SameCircuit.sameHops (h : SameCircuit P 3 circuit c) : SameHops P circuit c := by
  obtain ⟨relay, hrelay, hrelayNode, -⟩ := (h.relay rfl).node
  obtain ⟨exit, hexit, hexitNode, -⟩ := (h.exit rfl).node
  exact ⟨⟨relay, hrelay, hrelayNode⟩, ⟨exit, hexit, hexitNode⟩⟩

/-- A node is contacted under the URL of its record. -/
theorem nodeURL_of_same {node : Json} {rec : NodeRecord} (h : SameNode P node rec) :
    nodeURL P node = .ok rec.nodeURL := by
  unfold nodeURL
  rw [nodeAddr_of_same h]
  show Except.ok (lit "http://" ++ rec.addr) = _
  unfold NodeRecord.addr NodeRecord.nodeURL
  rw [List.append_assoc, List.append_assoc, List.append_assoc]

theorem guardURL_of_same (h : SameCircuit P hops circuit c) :
    guardURL P circuit = .ok c.guard.nodeURL := by
  obtain ⟨node, hguard, hnode, -⟩ := h.guard.node
  unfold guardURL
  rw [hguard]
  exact nodeURL_of_same hnode

/-- What the Python client reads of the key of a node. -/
structure SameContact (P : Libs) (x : Json × Bytes) (y : NodeRecord × Bytes) : Prop where
  contact : nodeContact P x.1 = .ok (y.1.nodeURL, str y.1.publicKey)
  text : Valid y.1.publicKey
  key : x.2 = y.2

theorem SameHop.contact {hop : String} {rec : NodeRecord} (h : SameHop P circuit hop rec)
    (key : Bytes) :
    ∃ node, subscript P circuit hop = .ok node ∧ SameContact P (node, key) (rec, key) := by
  obtain ⟨node, hsub, hnode, hkey⟩ := h.node
  refine ⟨node, hsub, ?_, h.text, rfl⟩
  unfold nodeContact
  rw [nodeURL_of_same hnode, hkey]
  rfl

/-- Both clients send the same keys to the same hops. -/
theorem candidates_of_same (h : SameCircuit P hops circuit c) (keys : SessionKeys) :
    ∃ nodes, candidates P circuit (ofSessionKeys keys hops) hops = .ok nodes ∧
      List.Forall₂ (SameContact P) nodes (HopVault.candidates c keys hops) := by
  obtain ⟨guard, hguard, hguardNode⟩ := h.guard.contact keys.guardKey
  unfold candidates HopVault.candidates ofSessionKeys
  rw [hguard]
  by_cases h3 : hops = 3
  · obtain ⟨relay, hrelay, hrelayNode⟩ := (h.relay h3).contact keys.relayKey
    obtain ⟨exit, hexit, hexitNode⟩ := (h.exit h3).contact keys.exitKey
    refine ⟨[(guard, keys.guardKey), (relay, keys.relayKey), (exit, keys.exitKey)], ?_, ?_⟩
    · simp only [if_pos h3, hrelay, hexit]
      rfl
    · rw [if_pos h3]
      exact .cons hguardNode (.cons hrelayNode (.cons hexitNode .nil))
  · refine ⟨[(guard, keys.guardKey)], ?_, ?_⟩
    · simp only [if_neg h3]
      rfl
    · rw [if_neg h3]
      exact .cons hguardNode .nil

/-! ## The directory's answer -/

/-- Both clients read the same circuit, or neither reads one. -/
inductive SameReading (P : Libs) (hops : Int) : Result Json → Result CircuitResponse → Prop
  | circuit {circuit : Json} {c : CircuitResponse} :
      SameCircuit P hops circuit c → SameReading P hops (.ok circuit) (.ok c)
  | error {exc err : Bytes} : SameReading P hops (.error exc) (.error err)

theorem SameReading.of_ok {r : Result Json} (h : SameReading P hops r (.ok c)) :
    ∃ circuit, r = .ok circuit ∧ SameCircuit P hops circuit c := by
  cases h with
  | circuit hsame => exact ⟨_, rfl, hsame⟩

theorem SameReading.of_error {r : Result Json} {err : Bytes} (h : SameReading P hops r (.error err)) :
    ∃ exc, r = .error exc := by
  cases h with
  | @error exc => exact ⟨exc, rfl⟩

section

variable {formatTime : Int → Bytes} {record : Directory.NodeRecord}

/-- A record that the directory has written, as Python reads it. -/
def nodeDict (formatTime : Int → Bytes) (record : Directory.NodeRecord) : Json :=
  obj [(lit "nodeId", str record.registration.nodeID),
    (lit "nodeType", str record.registration.nodeType), (lit "host", str record.registration.host),
    (lit "port", ofInt record.registration.port.toInt),
    (lit "publicKey", str record.registration.publicKey),
    (lit "lastSeen", str (toValid (formatTime record.lastSeen))),
    (lit "status", str record.status.text)]

theorem coerced_record (h : record.registration.ValidTexts) :
    coerced (record.json formatTime) = nodeDict formatTime record := by
  have hid : toValid record.registration.nodeID = _ := h.nodeID
  have htype : toValid record.registration.nodeType = _ := h.nodeType
  have hhost : toValid record.registration.host = _ := h.host
  have hkey : toValid record.registration.publicKey = _ := h.publicKey
  have hstatus : toValid record.status.text = record.status.text := by
    cases record.status <;> decide +kernel
  have hnames : toValid (lit "nodeId") = lit "nodeId" ∧ toValid (lit "nodeType") = lit "nodeType" ∧
      toValid (lit "host") = lit "host" ∧ toValid (lit "port") = lit "port" ∧
      toValid (lit "publicKey") = lit "publicKey" ∧ toValid (lit "lastSeen") = lit "lastSeen" ∧
      toValid (lit "status") = lit "status" := by decide +kernel
  simp [Directory.NodeRecord.json, Directory.NodeRegistration.members, coerced, coercedMembers,
    nodeDict, hid, htype, hhost, hkey, hstatus, hnames, ofInt]

theorem sameHop_record {hop : String} (h : record.registration.ValidTexts)
    (hsub : subscript P circuit hop = .ok (nodeDict formatTime record)) :
    SameHop P circuit hop record.reported :=
  ⟨⟨_, hsub, ⟨rfl, rfl, h.host⟩, rfl⟩, h.publicKey⟩

/-- The node has an ID. -/
theorem hasNode_record {hop : String} (hid : record.registration.nodeID ≠ [])
    (hsub : dictGet P circuit hop (obj []) = .ok (nodeDict formatTime record)) :
    hasNode P circuit hop = .ok true := by
  unfold hasNode
  rw [hsub]
  show Except.ok (truth P (str record.registration.nodeID)) = _
  cases hnode : record.registration.nodeID with
  | nil => exact absurd hnode hid
  | cons b t => rfl

/-- What `get_circuit` returns for an object the directory has written. -/
theorem readCircuit_writeJSON {N : Net ν} (hP : P.Agrees N) {ms : List (Bytes × Json)}
    (hwf : Wf (obj ms)) : readCircuit P hops (.ok (Directory.writeJSON statusOK (obj ms))) =
      checkCircuit P (coerced (obj ms)) hops := by
  have hok : ¬(400 ≤ statusOK ∧ statusOK < 600) := by decide
  have hread : P.responseJson (Directory.writeJSON statusOK (obj ms)).body = _ :=
    hP.responseJson hwf
  unfold readCircuit
  dsimp only
  rw [hread]
  exact if_neg hok

/-- A circuit of one hop, read by Python, -/
theorem reading_one {N : Net ν} (hP : P.Agrees N) (h : record.registration.Accepted) :
    ∃ circuit, readCircuit P 1 (.ok (Directory.writeJSON statusOK
        (Directory.guardJson formatTime record))) = .ok circuit ∧
      SameCircuit P 1 circuit ⟨record.reported, .zero, .zero⟩ := by
  have hwf : Wf (Directory.guardJson formatTime record) := ⟨Directory.wf_record _, trivial⟩
  have hdict : coerced (Directory.guardJson formatTime record) =
      obj [(lit "guard", nodeDict formatTime record)] := by
    have hname : toValid (lit "guard") = lit "guard" := by decide +kernel
    simp [Directory.guardJson, coerced, coercedMembers, coerced_record h.texts, hname]
  refine ⟨obj [(lit "guard", nodeDict formatTime record)], ?_, ?_⟩
  · have hguard : hasNode P (obj [(lit "guard", nodeDict formatTime record)]) "guard" = .ok true :=
      hasNode_record h.nodeID_ne_nil rfl
    rw [Directory.guardJson, readCircuit_writeJSON hP hwf]
    show checkCircuit P (coerced (Directory.guardJson formatTime record)) 1 = _
    rw [hdict]
    unfold checkCircuit
    rw [hguard]
    rfl
  · exact ⟨sameHop_record h.texts rfl, fun h3 => absurd h3 (by decide),
      fun h3 => absurd h3 (by decide)⟩

/-- and one of three. -/
theorem reading_three {N : Net ν} (hP : P.Agrees N) {circuit : Directory.CircuitResponse}
    (hguard : circuit.guard.registration.Accepted) (hrelay : circuit.relay.registration.Accepted)
    (hexit : circuit.exit.registration.Accepted) :
    ∃ dict, readCircuit P 3 (.ok (Directory.writeJSON statusOK (circuit.json formatTime))) =
        .ok dict ∧
      SameCircuit P 3 dict ⟨circuit.guard.reported, circuit.relay.reported, circuit.exit.reported⟩ := by
  have hwf : Wf (circuit.json formatTime) :=
    ⟨Directory.wf_record _, Directory.wf_record _, Directory.wf_record _, trivial⟩
  let dict := obj [(lit "guard", nodeDict formatTime circuit.guard),
    (lit "relay", nodeDict formatTime circuit.relay), (lit "exit", nodeDict formatTime circuit.exit)]
  have hdict : coerced (circuit.json formatTime) = dict := by
    have hnames : toValid (lit "guard") = lit "guard" ∧ toValid (lit "relay") = lit "relay" ∧
        toValid (lit "exit") = lit "exit" := by decide +kernel
    simp [dict, Directory.CircuitResponse.json, coerced, coercedMembers, coerced_record hguard.texts,
      coerced_record hrelay.texts, coerced_record hexit.texts, hnames]
  have hnode {hop : String} {record : Directory.NodeRecord} (h : record.registration.Accepted)
      (hsub : dictGet P dict hop (obj []) = .ok (nodeDict formatTime record)) :=
    hasNode_record h.nodeID_ne_nil hsub
  refine ⟨dict, ?_, ?_⟩
  · rw [Directory.CircuitResponse.json, readCircuit_writeJSON hP hwf]
    show checkCircuit P (coerced (circuit.json formatTime)) 3 = _
    rw [hdict]
    unfold checkCircuit
    rw [hnode hguard rfl, hnode hrelay rfl, hnode hexit rfl]
    rfl
  · exact ⟨sameHop_record hguard.texts rfl, fun _ => sameHop_record hrelay.texts rfl,
      fun _ => sameHop_record hexit.texts rfl⟩

/-- **One directory for both**: a response of the directory server is the
    same circuit to both clients, or an error to both. -/
theorem sameReading_of_answer {N : Net ν} (hP : P.Agrees N) {heartbeatTimeout : Int}
    {s : Directory.NodeRegistry} (hs : N.Reached formatTime heartbeatTimeout s)
    (htimes : TimesRead N.X formatTime) (hhops : hops = 1 ∨ hops = 3) {response : Response}
    (h : Directory.AnswersFrom formatTime s hops response) (directoryURL : Bytes) :
    SameReading P hops (readCircuit P hops (.ok response))
      (HopVault.readCircuit N.X directoryURL hops (.ok response)) := by
  have haccepted {type : String} {record : Directory.NodeRecord}
      (ho : Directory.Offers s type record) : record.registration.Accepted :=
    hs.wellFormed.accepted _ _ ho.registered
  by_cases havailable : Directory.Available s hops
  · have hok := h.ok.mpr havailable
    rcases hhops with rfl | rfl
    · obtain ⟨guard, hresponse, hguard, hfetch⟩ := h.one rfl hok
      rw [read_of_fetches (.inl rfl) (hfetch N.X (hs.deployed.timed htimes hguard)), hresponse]
      obtain ⟨circuit, hread, hsame⟩ := reading_one hP (haccepted hguard)
      exact hread ▸ .circuit hsame
    · obtain ⟨circuit, hresponse, hguard, hrelay, hexit, -, hfetch⟩ := h.three rfl hok
      have htimed : ∀ record ∈ [circuit.guard, circuit.relay, circuit.exit],
          record.Timed N.X formatTime := by
        simp only [List.forall_mem_cons, List.not_mem_nil, false_implies, implies_true, and_true]
        exact ⟨hs.deployed.timed htimes hguard, hs.deployed.timed htimes hrelay,
          hs.deployed.timed htimes hexit⟩
      rw [read_of_fetches (.inr rfl) (hfetch N.X htimed), hresponse]
      obtain ⟨dict, hread, hsame⟩ :=
        reading_three hP (haccepted hguard) (haccepted hrelay) (haccepted hexit)
      exact hread ▸ .circuit hsame
  · -- a 503 raises in Python, and is no 200 to Go
    have hstatus := h.unavailable.mpr havailable
    have hne : response.statusCode ≠ statusOK := by
      rw [hstatus]
      decide
    have hraise : 400 ≤ response.statusCode ∧ response.statusCode < 600 := by
      rw [hstatus]
      decide
    unfold readCircuit HopVault.readCircuit
    simp only [if_pos hraise, if_pos hne]
    exact .error

end

/-! ## The guard's answer -/

section

variable {N : Net ν}

/-- The guard's answer, as `requests` reads it. -/
def answerDict (ct : Bytes) : Json := obj [(lit "payload", ofBytes ct)]

theorem responseJson_onionAnswer (hP : P.Agrees N) (ct : Bytes) :
    P.responseJson (onionAnswer ct).body = some (answerDict ct) := by
  have hname : toValid (lit "payload") = lit "payload" := by decide +kernel
  have hpayload : coerced (ofBytes ct) = ofBytes ct := by
    unfold ofBytes
    split_ifs
    · rfl
    · simp [coerced]
  show P.responseJson (encode (obj [(lit "payload", ofBytes ct)]) ++ [10]) = _
  rw [hP.responseJson (wf_onionResponse ⟨ct⟩)]
  simp [answerDict, coerced, coercedMembers, hname, hpayload]

/-- The Python client gets the response of the destination out of it. -/
theorem readAnswer_wrapped {keys : SessionKeys} (hhops : hops = 1 ∨ hops = 3) {ct : Bytes}
    {resp : DestResponse} (h : WrappedAnswer N.X keys resp hops ct) :
    ∃ value, readAnswer P N.X (ofSessionKeys keys hops) (answerDict ct) hops = .ok value ∧
      SameResponse value (exitResponse resp).coerced := by
  have hgo := decryptResponse_wrapped hhops h
  unfold WrappedAnswer ExitAnswer at h
  have hne : ct ≠ [] := by
    rcases hhops with rfl | rfl
    · rw [if_neg (by decide)] at h
      exact ne_nil_of_decrypt h
    · rw [if_pos rfl] at h
      obtain ⟨relayCT, exitCT, hguard, -⟩ := h
      exact ne_nil_of_decrypt hguard
  have hsame : SameAnswer P N.X keys hops ct := by
    rcases hhops with rfl | rfl
    · rw [if_neg (by decide)] at h
      exact sameAnswer_one h
    · rw [if_pos rfl] at h
      obtain ⟨relayCT, exitCT, hguard, hrelay, hexit⟩ := h
      exact sameAnswer_three hguard hrelay hexit
  obtain ⟨resp', value, hread, hvalue, hresp⟩ := hsame
  obtain rfl := Except.ok.inj (hgo.symm.trans hread)
  refine ⟨value, ?_, hresp⟩
  have hpayload : subscript P (answerDict ct) "payload" = .ok (str (Base64.encode ct)) := by
    unfold answerDict ofBytes
    rw [if_neg hne]
    rfl
  unfold readAnswer
  rw [hpayload]
  exact hvalue

end

end HopVault.Python
