import HopVault.Client
import HopVault.Directory.WellFormed

/-! # Circuits from the directory

    `GET /circuit` reads the registry once, so whatever others do to it in
    the meantime, its answer is about one instant: it names healthy nodes
    of the right types, each of another ID, whenever there are any. The
    client reads from the answer the records the directory wrote. -/

namespace HopVault.Directory

open Framework Framework.Json Framework.Utf8

variable {formatTime : Int → Bytes} {heartbeatTimeout : Int} {r r' : NodeRegistry}

/-! ## Concurrent updates -/

/-- One step that another handler, or the health monitor, makes in the
    registry. -/
inductive Change (heartbeatTimeout : Int) : NodeRegistry → NodeRegistry → Prop
  | operation {r r' : NodeRegistry} (t : Int) (e : Operation) (a : e.Ans) :
      e.Allowed → Performs t r e a r' → Change heartbeatTimeout r r'
  | cleanup {r : NodeRegistry} (t : Int) (order : List (Bytes × NodeRecord)) :
      order.Perm r.entries →
      Change heartbeatTimeout r (cleanupUnhealthyNodes r order t heartbeatTimeout).2

theorem WellFormed.change (hr : WellFormed r) (h : Change heartbeatTimeout r r') :
    WellFormed r' := by
  cases h with
  | operation t e a he h => exact hr.performs he h
  | cleanup t order horder => exact hr.cleanup horder heartbeatTimeout

/-- An operation at whatever time it is. -/
def PerformsSometime : Behavior Operations NodeRegistry := fun r e a r' => ∃ t, Performs t r e a r'

/-! ## Drawing hops -/

/-- The registry offers the record as a hop of the given type. -/
structure Offers (r : NodeRegistry) (nodeType : String) (record : NodeRecord) : Prop where
  registered : r.get? record.registration.nodeID = some record
  healthy : record.status = .healthy
  type : record.registration.nodeType = lit nodeType

/-- What the handlers of a directory server do is done on its registry. -/
def OnRegistry {σ : Type} (registry : σ → NodeRegistry) (B : Behavior Operations σ) : Prop :=
  ∀ s e a s', B s e a s' → PerformsSometime (registry s) e a (registry s')

variable {σ : Type} {registry : σ → NodeRegistry} {B : Behavior Operations σ} {E : σ → σ → Prop}
  {u : σ} {seen : List σ} {answer : Option Response}

/-- A drawn index is in range, whatever the random source answers. -/
theorem pick_interleaved (hB : OnRegistry registry B) {nodes : List NodeRecord} (hnodes : nodes ≠ [])
    {f : Option NodeRecord → Service (Option Response)}
    (hrun : Interleaved B E u (Service.pick nodes >>= f) seen answer) :
    ∃ record ∈ nodes, ∃ s later, Interleaved B E s (f (some record)) later answer := by
  obtain ⟨s₁, -, -, i, s₂, later, hdraw, -, hrest⟩ :=
    hrun.of_op (I := fun _ => True) trivial fun _ _ _ _ => trivial
  obtain ⟨t, -, hrange⟩ := hB _ _ _ _ hdraw
  have hpos : (0 : Int) < nodes.length := by
    have := List.length_pos_iff.mpr hnodes
    omega
  obtain ⟨hlo, hhi⟩ := hrange hpos
  have hlt : i.toNat < nodes.length := (Int.toNat_lt hlo).mpr hhi
  refine ⟨nodes[i.toNat], List.getElem_mem hlt, s₂, later, ?_⟩
  have hrest : Interleaved B E s₂ (f (if 0 ≤ i then nodes[i.toNat]? else none)) later answer :=
    hrest
  rwa [if_pos hlo, List.getElem?_eq_getElem hlt] at hrest

/-- What a group of a listing holds. -/
theorem mem_group_iff (hr : WellFormed r) {order : List (Bytes × NodeRecord)}
    (horder : order.Perm r.entries) {nodeType : String} {record : NodeRecord} :
    record ∈ (NodeRegistry.list order false).filter
      (fun n => n.registration.nodeType == lit nodeType) ↔ Offers r nodeType record := by
  rw [List.mem_filter, mem_list_iff horder]
  constructor
  · rintro ⟨⟨⟨id, hid⟩, hhealthy⟩, htype⟩
    exact ⟨hr.keyed id record hid ▸ hid, by simpa using hhealthy, by simpa using htype⟩
  · rintro ⟨hget, hhealthy, htype⟩
    exact ⟨⟨⟨_, hget⟩, .inr hhealthy⟩, by simpa using htype⟩

/-- Whether a circuit of the given length can be built. -/
def Available (r : NodeRegistry) (hops : Int) : Prop :=
  (∃ guard, Offers r "guard" guard) ∧
    (hops = 3 → (∃ relay, Offers r "relay" relay) ∧ ∃ exit, Offers r "exit" exit)

/-- An answer to a request for a circuit, from the registry at one instant. -/
inductive CircuitAnswer (formatTime : Int → Bytes) (r : NodeRegistry) : Int → Response → Prop
  | one {guard : NodeRecord} : Offers r "guard" guard →
      CircuitAnswer formatTime r 1 (writeJSON statusOK (guardJson formatTime guard))
  | three {circuit : CircuitResponse} : Offers r "guard" circuit.guard →
      Offers r "relay" circuit.relay → Offers r "exit" circuit.exit →
      CircuitAnswer formatTime r 3 (writeJSON statusOK (circuit.json formatTime))
  | unavailable {hops : Int} : ¬Available r hops →
      CircuitAnswer formatTime r hops Service.notEnoughNodes

/-- The hops are drawn from the listing and nothing else. -/
theorem drawCircuit_answer (hB : OnRegistry registry B) {s : NodeRegistry} (hs : WellFormed s)
    {order : List (Bytes × NodeRecord)} (horder : order.Perm s.entries) {hops : Int}
    (hhops : hops = 1 ∨ hops = 3)
    (hrun : Interleaved B E u (Service.drawCircuit formatTime hops
      (NodeRegistry.groupByType order false)) seen answer) :
    ∃ response, answer = some response ∧ CircuitAnswer formatTime s hops response := by
  have hmem {nodeType : String} {record : NodeRecord} :
      record ∈ (NodeRegistry.list order false).filter
        (fun n => n.registration.nodeType == lit nodeType) ↔ Offers s nodeType record :=
    mem_group_iff hs horder
  -- an empty group means that the registry offers no node of the type
  have hnone {nodeType : String} (hempty : (NodeRegistry.list order false).filter
      (fun n => n.registration.nodeType == lit nodeType) = []) :
      ¬∃ record, Offers s nodeType record := by
    rintro ⟨record, hrecord⟩
    have := hmem.mpr hrecord
    rw [hempty] at this
    cases this
  unfold Service.drawCircuit at hrun
  -- the handler's branches: no guard, one hop, no relay or exit, three hops
  split_ifs at hrun with hguard hone hrest
  · exact ⟨_, hrun.of_ret, .unavailable fun h => hnone hguard h.1⟩
  · subst hone
    obtain ⟨guard, hg, _, _, hrun⟩ := pick_interleaved hB hguard hrun
    exact ⟨_, hrun.of_ret, .one (hmem.mp hg)⟩
  · have hthree : hops = 3 := by omega
    refine ⟨_, hrun.of_ret, .unavailable fun h => ?_⟩
    obtain ⟨hrelay, hexit⟩ := h.2 hthree
    rcases hrest with hrest | hrest
    · exact hnone hrest hrelay
    · exact hnone hrest hexit
  · obtain rfl : hops = 3 := by omega
    obtain ⟨hrelay, hexit⟩ := not_or.mp hrest
    obtain ⟨guard, hg, _, _, hrun⟩ := pick_interleaved hB hguard hrun
    obtain ⟨relay, hrl, _, _, hrun⟩ := pick_interleaved hB hrelay hrun
    obtain ⟨exit, he, _, _, hrun⟩ := pick_interleaved hB hexit hrun
    exact ⟨_, hrun.of_ret, .three (hmem.mp hg) (hmem.mp hrl) (hmem.mp he)⟩

/-- Whatever happens in the meantime, there is an instant of the request
    whose registry the answer is from. -/
theorem circuitHandler_answer (hB : OnRegistry registry B) {rawQuery : Bytes} {hops : Int}
    (hhops : parseHops rawQuery = .ok hops) {I : σ → Prop} (hu : I u)
    (henv : ∀ s s', I s → E s s' → I s') (hwf : ∀ s, I s → WellFormed (registry s))
    (hrun : Interleaved B E u (Service.circuitHandler formatTime rawQuery) seen answer) :
    ∃ s ∈ seen, I s ∧ ∃ response, answer = some response ∧
      CircuitAnswer formatTime (registry s) hops response := by
  unfold Service.circuitHandler at hrun
  rw [hhops] at hrun
  -- the instant is the one at which the nodes are listed
  obtain ⟨s, hseen, hs, nodes, s', _, hlist, -, hrun⟩ := hrun.of_op hu henv
  obtain ⟨t, -, order, horder, rfl⟩ := hB _ _ _ _ hlist
  have hrun : Interleaved B E s' (Service.drawCircuit formatTime hops
      (.ofNodes (NodeRegistry.list order false))) _ answer := hrun
  rw [NodeRegistry.NodesByTypeResponse.ofNodes_list] at hrun
  exact ⟨s, hseen, hs, drawCircuit_answer hB (hwf _ hs) horder (parseHops_eq_ok hhops) hrun⟩

/-- The registry is all there is of the server. -/
theorem onRegistry_id : OnRegistry id PerformsSometime := fun _ _ _ _ h => h

/-- `GET /circuit`, served while nothing else happens. -/
theorem runs_circuitHandler (hr : WellFormed r) {t : Int} {rawQuery : Bytes} {hops : Int}
    (hhops : parseHops rawQuery = .ok hops) {answer : Option Response}
    (hrun : Runs (Performs t) r (Service.circuitHandler formatTime rawQuery) answer r') :
    ∃ response, answer = some response ∧ CircuitAnswer formatTime r hops response := by
  have hsometime : Runs PerformsSometime r (Service.circuitHandler formatTime rawQuery) answer r' :=
    hrun.weaken fun _ _ _ _ h => ⟨t, h⟩
  obtain ⟨seen, hrun⟩ := Interleaved.of_runs (E := fun _ _ => False) hsometime
  obtain ⟨s, -, rfl, hanswer⟩ := circuitHandler_answer (I := fun s => s = r)
    onRegistry_id hhops rfl
    (fun _ _ _ h => h.elim) (fun _ h => h ▸ hr) hrun
  exact hanswer

/-! ## What the client reads -/

/-- A record as the client sees it. -/
def NodeRecord.reported (record : NodeRecord) : HopVault.NodeRecord :=
  ⟨record.registration.nodeID, record.registration.nodeType, record.registration.host,
    record.registration.port, record.registration.publicKey, record.lastSeen, record.status.text⟩

variable {X : Externals}

/-- The time of the record is written as text that reads as the same time. -/
structure NodeRecord.Timed (X : Externals) (formatTime : Int → Bytes) (record : NodeRecord) :
    Prop where
  text : Valid (formatTime record.lastSeen)
  parse : X.parseTime (formatTime record.lastSeen) = some record.lastSeen

theorem wf_record (record : NodeRecord) : Wf (record.json formatTime) :=
  ⟨trivial, trivial, trivial, wf_ofInt _, trivial, trivial, trivial, trivial⟩

/-- The client reads a record the directory wrote. -/
theorem fill_record {record : NodeRecord} (hrecord : record.registration.ValidTexts)
    (htime : record.Timed X formatTime) :
    fill false (HopVault.NodeRecord.fields X) (coerced (record.json formatTime)) .zero =
      some record.reported := by
  have hid : toValid record.registration.nodeID = _ := hrecord.nodeID
  have htype : toValid record.registration.nodeType = _ := hrecord.nodeType
  have hhost : toValid record.registration.host = _ := hrecord.host
  have hkey : toValid record.registration.publicKey = _ := hrecord.publicKey
  have htext : toValid (formatTime record.lastSeen) = _ := htime.text
  -- both texts of a status are ASCII
  have hstatus : toValid record.status.text = record.status.text := by
    cases record.status <;> decide +kernel
  -- the port and the time are not texts, so what they are read as is said here
  let atPort : HopVault.NodeRecord := ⟨toValid record.registration.nodeID,
    toValid record.registration.nodeType, toValid record.registration.host,
    record.registration.port, [], HopVault.NodeRecord.zeroTime, []⟩
  let atTime : HopVault.NodeRecord :=
    { atPort with publicKey := toValid record.registration.publicKey, lastSeen := record.lastSeen }
  unfold NodeRecord.json NodeRegistration.members
  simp only [List.cons_append, List.nil_append]
  rw [fill_obj, fillMembers_known rfl rfl, fillMembers_known rfl rfl, fillMembers_known rfl rfl,
    fillMembers_known (b := atPort) rfl
      (by simp [atPort, RecordField.of, HopVault.NodeRecord.zero]),
    fillMembers_known rfl rfl,
    fillMembers_known (b := atTime) rfl
      (by simp [atTime, RecordField.of, HopVault.NodeRecord.asTime, coerced, htext, htime.parse]),
    fillMembers_known rfl rfl, fillMembers_nil]
  simp [atTime, atPort, NodeRecord.reported, hid, htype, hhost, hkey, hstatus]

/-- The client reads a circuit of three hops. -/
theorem decode_three {circuit : CircuitResponse}
    (hrecords : ∀ record ∈ [circuit.guard, circuit.relay, circuit.exit],
      record.registration.ValidTexts ∧ record.Timed X formatTime) :
    decodeStream (HopVault.CircuitResponse.fields X) .zero
        (writeJSON statusOK (circuit.json formatTime)).body =
      some ⟨circuit.guard.reported, circuit.relay.reported, circuit.exit.reported⟩ := by
  have hfill {record : NodeRecord} (h : record ∈ [circuit.guard, circuit.relay, circuit.exit]) :=
    fill_record (hrecords record h).1 (hrecords record h).2
  have hwf : Wf (circuit.json formatTime) := ⟨wf_record _, wf_record _, wf_record _, trivial⟩
  unfold writeJSON
  rw [decodeStream_encode _ _ hwf (numEnd_cons (by decide) []), CircuitResponse.json, fill_obj,
    fillMembers_known (b := ⟨circuit.guard.reported, .zero, .zero⟩) rfl
      (by simp [RecordField.of, HopVault.CircuitResponse.zero, hfill]),
    fillMembers_known (b := ⟨circuit.guard.reported, circuit.relay.reported, .zero⟩) rfl
      (by simp [RecordField.of, hfill]),
    fillMembers_known
      (b := ⟨circuit.guard.reported, circuit.relay.reported, circuit.exit.reported⟩) rfl
      (by simp [RecordField.of, hfill]),
    fillMembers_nil]

/-- The client reads a circuit of one hop. -/
theorem decode_one {guard : NodeRecord} (htexts : guard.registration.ValidTexts)
    (htime : guard.Timed X formatTime) :
    decodeStream (HopVault.CircuitResponse.fields X) .zero
        (writeJSON statusOK (guardJson formatTime guard)).body =
      some ⟨guard.reported, .zero, .zero⟩ := by
  have hwf : Wf (guardJson formatTime guard) := ⟨wf_record _, trivial⟩
  unfold writeJSON
  rw [decodeStream_encode _ _ hwf (numEnd_cons (by decide) []), guardJson, fill_obj,
    fillMembers_known (b := ⟨guard.reported, .zero, .zero⟩) rfl
      (by simp [RecordField.of, HopVault.CircuitResponse.zero, fill_record htexts htime]),
    fillMembers_nil]

/-- The client that asks for this hop count and gets this response returns
    the circuit. -/
def Fetches (X : Externals) (hops : Int) (response : Response)
    (circuit : HopVault.CircuitResponse) : Prop :=
  ∀ directoryURL, ∃ k, getCircuitWithHops X directoryURL hops =
      .op (.httpGet (directoryURL ++ lit "/circuit?hops=" ++ Decimal.itoa hops)) k ∧
    k (.ok response) = .ret (.ok circuit)

theorem fetches_of_decode {hops : Int} {payload : Json} {circuit : HopVault.CircuitResponse}
    (hhops : hops = 1 ∨ hops = 3)
    (hdecode : decodeStream (HopVault.CircuitResponse.fields X) .zero
      (writeJSON statusOK payload).body = some circuit)
    (hguard : circuit.guard.nodeID ≠ [])
    (hrest : hops = 3 → circuit.relay.nodeID ≠ [] ∧ circuit.exit.nodeID ≠ []) :
    Fetches X hops (writeJSON statusOK payload) circuit := by
  intro directoryURL
  have hvalid : validateHops hops = .ok () := if_pos hhops
  have hcomplete : ¬(hops = 3 ∧ (circuit.relay.nodeID = [] ∨ circuit.exit.nodeID = [])) := by
    rintro ⟨hthree, hmissing⟩
    obtain ⟨hrelay, hexit⟩ := hrest hthree
    exact hmissing.elim hrelay hexit
  unfold getCircuitWithHops
  rw [hvalid]
  refine ⟨_, rfl, ?_⟩
  dsimp only [Prog.bind]
  rw [if_neg (by simp [writeJSON]), hdecode]
  simp [hguard, hcomplete]

/-! ## Every answer -/

/-- The response to a request for `hops` hops, from the registry at one
    instant. -/
structure AnswersFrom (formatTime : Int → Bytes) (s : NodeRegistry) (hops : Int)
    (response : Response) : Prop where
  ok : response.statusCode = statusOK ↔ Available s hops
  unavailable : response.statusCode = statusServiceUnavailable ↔ ¬Available s hops
  /-- Three hops: healthy nodes of the three types with different IDs. -/
  three : hops = 3 → response.statusCode = statusOK → ∃ circuit : CircuitResponse,
    response = writeJSON statusOK (circuit.json formatTime) ∧
    Offers s "guard" circuit.guard ∧ Offers s "relay" circuit.relay ∧
    Offers s "exit" circuit.exit ∧
    [circuit.guard, circuit.relay, circuit.exit].Pairwise
      (fun a b => a.registration.nodeID ≠ b.registration.nodeID) ∧
    ∀ X : Externals, (∀ record ∈ [circuit.guard, circuit.relay, circuit.exit],
        record.Timed X formatTime) →
      Fetches X hops response
        ⟨circuit.guard.reported, circuit.relay.reported, circuit.exit.reported⟩
  /-- One hop: a healthy guard. -/
  one : hops = 1 → response.statusCode = statusOK → ∃ guard : NodeRecord,
    response = writeJSON statusOK (guardJson formatTime guard) ∧ Offers s "guard" guard ∧
    ∀ X : Externals, guard.Timed X formatTime →
      Fetches X hops response ⟨guard.reported, .zero, .zero⟩

/-- Records of different types have different IDs. -/
theorem Offers.ne {s : NodeRegistry} {type₁ type₂ : String} {a b : NodeRecord}
    (ha : Offers s type₁ a) (hb : Offers s type₂ b) (hne : lit type₁ ≠ lit type₂) :
    a.registration.nodeID ≠ b.registration.nodeID := by
  intro hsame
  have hget := ha.registered
  rw [hsame, hb.registered, Option.some.injEq] at hget
  exact hne (by rw [← ha.type, ← hb.type, hget])

theorem CircuitAnswer.answersFrom {s : NodeRegistry} {hops : Int} {response : Response}
    (hs : WellFormed s) (h : CircuitAnswer formatTime s hops response) :
    AnswersFrom formatTime s hops response := by
  have hoffers {type : String} {record : NodeRecord} (ho : Offers s type record) :
      record.registration.Accepted := hs.accepted _ _ ho.registered
  cases h with
  | @one guard hguard =>
    -- one hop: the guard alone is encoded and decoded
    have havailable : Available s 1 := ⟨⟨guard, hguard⟩, fun h => absurd h (by decide)⟩
    refine ⟨by simp [writeJSON, havailable], by simp [writeJSON, havailable]; decide, by simp, ?_⟩
    refine fun _ _ => ⟨guard, rfl, hguard, fun X htime => ?_⟩
    exact fetches_of_decode (.inl rfl) (decode_one (hoffers hguard).texts htime)
      (hoffers hguard).nodeID_ne_nil (by simp)
  | @three circuit hguard hrelay hexit =>
    have havailable : Available s 3 := ⟨⟨_, hguard⟩, fun _ => ⟨⟨_, hrelay⟩, _, hexit⟩⟩
    refine ⟨by simp [writeJSON, havailable], by simp [writeJSON, havailable]; decide, ?_, by simp⟩
    refine fun _ _ => ⟨circuit, rfl, hguard, hrelay, hexit, ?_, fun X htime => ?_⟩
    · -- offers of different types are different nodes
      simp [hguard.ne hrelay (by decide), hguard.ne hexit (by decide),
        hrelay.ne hexit (by decide)]
    · refine fetches_of_decode (.inr rfl) (decode_three ?_) (hoffers hguard).nodeID_ne_nil
        fun _ => ⟨(hoffers hrelay).nodeID_ne_nil, (hoffers hexit).nodeID_ne_nil⟩
      intro record hrecord
      refine ⟨?_, htime record hrecord⟩
      simp only [List.mem_cons, List.not_mem_nil, or_false] at hrecord
      rcases hrecord with rfl | rfl | rfl
      · exact (hoffers hguard).texts
      · exact (hoffers hrelay).texts
      · exact (hoffers hexit).texts
  | unavailable hnone =>
    -- too few nodes: the answer is a 503, which is no 200
    have hstatus : Service.notEnoughNodes.statusCode = statusServiceUnavailable := rfl
    have hne : statusServiceUnavailable ≠ statusOK := by decide
    exact ⟨by simp [hstatus, hne, hnone], by simp [hstatus, hnone],
      fun _ hok => absurd hok hne, fun _ hok => absurd hok hne⟩

/-- **Circuits are well formed**, from every registry that can be reached and
    whatever others do to it while the request is served. -/
theorem circuits_well_formed {h : List Exchange} {rawQuery : Bytes} {seen : List NodeRegistry}
    (hrun : Steps (Serves formatTime heartbeatTimeout) .empty h r)
    (hserve : Interleaved PerformsSometime (Change heartbeatTimeout) r
      (Service.circuitHandler formatTime rawQuery) seen answer) :
    -- it only reads, and asks for random numbers only below a positive bound
    (Service.circuitHandler formatTime rawQuery).All Operation.ReadOnly (fun _ => True)
      (fun _ => True) ∧
    -- it does not panic
    (∃ response, answer = some response) ∧
    (∀ err, parseHops rawQuery = .error err →
      answer = some (writeJSONError statusBadRequest err)) ∧
    ∀ hops, parseHops rawQuery = .ok hops →
      ∃ s ∈ seen, ∃ response, answer = some response ∧ AnswersFrom formatTime s hops response := by
  have hr := wellFormed_of_run hrun
  refine ⟨all_circuitHandler trivial (fun _ h => h) rawQuery, ?_, ?_, ?_⟩
  · cases hhops : parseHops rawQuery with
    | error err =>
      unfold Service.circuitHandler at hserve
      rw [hhops] at hserve
      exact ⟨_, hserve.of_ret⟩
    | ok hops =>
      obtain ⟨s, -, -, response, hanswer, -⟩ :=
        circuitHandler_answer onRegistry_id hhops hr (fun _ _ hs h => hs.change h) (fun _ hs => hs) hserve
      exact ⟨response, hanswer⟩
  · -- a query that does not parse is answered before the registry is read
    intro err hhops
    unfold Service.circuitHandler at hserve
    rw [hhops] at hserve
    exact hserve.of_ret
  · intro hops hhops
    obtain ⟨s, hseen, hs, response, hanswer, hcircuit⟩ :=
      circuitHandler_answer onRegistry_id hhops hr (fun _ _ hs h => hs.change h) (fun _ hs => hs) hserve
    exact ⟨s, hseen, response, hanswer, hcircuit.answersFrom hs⟩

namespace Sample

/-- The circuit over the second guard. -/
def circuit : CircuitResponse := ⟨newRecord neighbour, newRecord relayNode, newRecord exitNode⟩

/-- The registry after the relay has gone. -/
def left : NodeRegistry := ((registerAll nodes).delete relayNode.nodeID).2

theorem change_delete (r : NodeRegistry) (nodeID : Bytes) : Change 30 r (r.delete nodeID).2 :=
  .operation 0 (.delete nodeID) (r.delete nodeID).1 trivial rfl

/-- What leaves the registry as it is leaves everything as it is. -/
def Reads {σ : Type} (registry : σ → NodeRegistry) (B : Behavior Operations σ) : Prop :=
  ∀ s e a, PerformsSometime (registry s) e a (registry s) → B s e a s

theorem reads_id : Reads id PerformsSometime := fun _ _ _ h => h

section

variable (hB : Reads registry B)

include hB

/-- The random source answers `i`. -/
theorem pick_at {nodes : List NodeRecord} {record : NodeRecord} (i : Nat)
    (hrecord : nodes[i]? = some record) {f : Option NodeRecord → Service (Option Response)}
    (hrest : Interleaved B E u (f (some record)) seen answer) :
    Interleaved B E u (Service.pick nodes >>= f) (u :: seen) answer := by
  obtain ⟨hlt, -⟩ := List.getElem?_eq_some_iff.mp hrecord
  refine .op (b := (i : Int)) (hB u (.randomIntn nodes.length) (i : Int) ⟨0, rfl, fun _ => ?_⟩) ?_
  · exact ⟨Int.natCast_nonneg i, Int.ofNat_lt.mpr hlt⟩
  · show Interleaved B E u (f (if (0 : Int) ≤ i then nodes[(i : Int).toNat]? else none)) seen answer
    rwa [if_pos (Int.natCast_nonneg i), Int.toNat_natCast, hrecord]

/-- The hops are those at three positions. -/
theorem draw_at {guards relays exits : List NodeRecord} {circuit : CircuitResponse} (i j k : Nat)
    (hguard : guards[i]? = some circuit.guard) (hrelay : relays[j]? = some circuit.relay)
    (hexit : exits[k]? = some circuit.exit) :
    Interleaved B E u (Service.drawCircuit formatTime 3 ⟨guards, relays, exits⟩) [u, u, u, u]
      (some (writeJSON statusOK (circuit.json formatTime))) := by
  have hne {nodes : List NodeRecord} {record : NodeRecord} {i : Nat}
      (h : nodes[i]? = some record) : nodes ≠ [] := by
    rintro rfl
    simp at h
  unfold Service.drawCircuit
  rw [if_neg (hne hguard), if_neg (by decide), if_neg (not_or.mpr ⟨hne hrelay, hne hexit⟩)]
  exact pick_at hB i hguard (pick_at hB j hrelay (pick_at hB k hexit .ret))

/-- The nodes are listed, and the hops are drawn from them. -/
theorem list_then_draw {rawQuery : Bytes} (hhops : parseHops rawQuery = .ok 3)
    {nodes : List NodeRecord} (hlist : NodeRegistry.list (registry u).entries false = nodes)
    {grouped : NodeRegistry.NodesByTypeResponse} (hgrouped : .ofNodes nodes = grouped)
    (hdraw : Interleaved B E u (Service.drawCircuit formatTime 3 grouped) seen answer) :
    Interleaved B E u (Service.circuitHandler formatTime rawQuery) (u :: seen) answer := by
  unfold Service.circuitHandler
  rw [hhops]
  subst hgrouped
  exact .op (hB u (.list false) nodes ⟨0, rfl, _, .refl _, hlist.symm⟩) hdraw

end

/-- The relay is deregistered after the nodes are listed and before the hops
    are drawn. -/
theorem circuit_interleaved : Interleaved PerformsSometime (Change 30) (registerAll nodes)
    (Service.circuitHandler (fun _ => []) (lit "hops=3"))
    [registerAll nodes, registerAll nodes, left, left, left, left]
    (some (writeJSON statusOK (circuit.json fun _ => []))) := by
  have hgrouped : NodeRegistry.NodesByTypeResponse.ofNodes (nodes.map newRecord) =
      ⟨[newRecord liveNode, newRecord neighbour], [newRecord relayNode], [newRecord exitNode]⟩ := rfl
  have hlist := list_nodes
  unfold left
  -- the registry is not to be computed
  generalize registerAll nodes = r at hlist
  exact list_then_draw reads_id (by decide +kernel) hlist hgrouped
    (.env (change_delete r relayNode.nodeID) (draw_at reads_id 1 0 0 rfl rfl rfl))

theorem entries_left : ∀ entry ∈ left.entries, entry ∈ (registerAll nodes).entries := by
  decide +kernel

/-- Before and after, only the four nodes are offered. -/
theorem mem_nodes_of_offers {s : NodeRegistry} (hs : s = registerAll nodes ∨ s = left)
    {nodeType : String} {record : NodeRecord} (h : Offers s nodeType record) :
    ∃ node ∈ nodes, record = newRecord node ∧ node.nodeType = lit nodeType := by
  have hentry : (record.registration.nodeID, record) ∈ s.entries :=
    SortedMap.get?_eq_some.mp h.registered
  have hmem : (record.registration.nodeID, record) ∈ (registerAll nodes).entries := by
    rcases hs with hs | hs
    · rwa [hs] at hentry
    · rw [hs] at hentry
      exact entries_left _ hentry
  rw [entries_nodes] at hmem
  obtain ⟨node, hnode, heq⟩ := List.mem_map.mp hmem
  obtain rfl : newRecord node = record := congrArg Prod.snd heq
  exact ⟨node, hnode, rfl, h.type⟩

/-- The answer names the second guard, so it is of this circuit. -/
theorem eq_circuit {s : NodeRegistry} (hs : s = registerAll nodes ∨ s = left)
    {drawn : CircuitResponse} (hguard : Offers s "guard" drawn.guard)
    (hrelay : Offers s "relay" drawn.relay) (hexit : Offers s "exit" drawn.exit)
    (hanswer : writeJSON statusOK (circuit.json fun _ => []) =
      writeJSON statusOK (drawn.json fun _ => [])) : drawn = circuit := by
  obtain ⟨guard, relay, exit⟩ := drawn
  obtain ⟨guardNode, hguardNode, rfl, hguardType⟩ := mem_nodes_of_offers hs hguard
  obtain ⟨relayNode', hrelayNode, rfl, hrelayType⟩ := mem_nodes_of_offers hs hrelay
  obtain ⟨exitNode', hexitNode, rfl, hexitType⟩ := mem_nodes_of_offers hs hexit
  have hguards : ∀ node ∈ nodes, node.nodeType = lit "guard" →
      node = liveNode ∨ node = neighbour := by decide +kernel
  have hrelays : ∀ node ∈ nodes, node.nodeType = lit "relay" → node = relayNode := by
    decide +kernel
  have hexits : ∀ node ∈ nodes, node.nodeType = lit "exit" → node = exitNode := by
    decide +kernel
  obtain rfl := hrelays _ hrelayNode hrelayType
  obtain rfl := hexits _ hexitNode hexitType
  rcases hguards _ hguardNode hguardType with rfl | rfl
  · have hother : writeJSON statusOK (circuit.json fun _ => []) ≠
        writeJSON statusOK (CircuitResponse.json (fun _ => [])
          ⟨newRecord liveNode, newRecord relayNode, newRecord exitNode⟩) := by decide +kernel
    exact absurd hanswer hother
  · rfl

end Sample

/-- The relay goes while the request is served. The answer is still from one
    registry, which offers all three nodes, and the client reads them. -/
theorem circuits_well_formed_sample :
    Sample.left.get? Sample.relayNode.nodeID = none ∧
    (∃ s ∈ [Sample.registerAll Sample.nodes, Sample.left],
      Offers s "guard" Sample.circuit.guard ∧ Offers s "relay" Sample.circuit.relay ∧
      Offers s "exit" Sample.circuit.exit) ∧
    ∀ X : Externals, X.parseTime [] = some 0 →
      Fetches X 3 (writeJSON statusOK (Sample.circuit.json fun _ => []))
        ⟨Sample.circuit.guard.reported, Sample.circuit.relay.reported,
          Sample.circuit.exit.reported⟩ := by
  obtain ⟨h, hrun⟩ := Sample.steps_registerAll Sample.nodes
  obtain ⟨-, -, -, hanswer⟩ := circuits_well_formed hrun Sample.circuit_interleaved
  obtain ⟨s, hseen, response, hresponse, hfrom⟩ := hanswer 3 (by decide +kernel)
  obtain rfl := Option.some.inj hresponse
  have hs : s = Sample.registerAll Sample.nodes ∨ s = Sample.left := by simpa using hseen
  obtain ⟨drawn, hdrawn, hguard, hrelay, hexit, -, hread⟩ := hfrom.three rfl rfl
  obtain rfl := Sample.eq_circuit hs hguard hrelay hexit hdrawn
  refine ⟨by decide +kernel, ⟨s, by simpa using hs, hguard, hrelay, hexit⟩, fun X hX => hread X ?_⟩
  intro record hrecord
  simp only [List.mem_cons, List.not_mem_nil, or_false] at hrecord
  rcases hrecord with rfl | rfl | rfl <;> exact ⟨valid_nil, hX⟩

end HopVault.Directory
