import HopVault.Directory.Circuit

/-! # How fast the directory notices

    A node is offered as long as it is marked healthy, and only cleanups
    mark it unhealthy. So a silent node stays on offer for the time-out
    and, at most, the time since the last cleanup, and a node that has been
    seen within the time-out is always on offer. -/

namespace HopVault.Directory

open Framework Framework.Json
open NodeRegistry (NodesByTypeResponse)

/-! ## Timed runs -/

/-- The time of the latest cleanup, or of the start. -/
def latestCleanup (start : Int) (h : List Exchange) : Int :=
  h.foldl (fun latest x =>
    match x with
    | .cleanup t => t
    | .request _ _ _ => latest) start

/-- Time does not go back from the start over the run to the query. -/
def Monotone (start : Int) (h : List Exchange) (q : Int) : Prop :=
  (start :: (h.map Exchange.time ++ [q])).Pairwise (· ≤ ·)

variable {start q : Int} {h : List Exchange} {x : Exchange}

/-- What a run that is in order says of its last step. -/
theorem Monotone.snoc (hm : Monotone start (h ++ [x]) q) :
    Monotone start h x.time ∧ x.time ≤ q := by
  unfold Monotone at hm ⊢
  rw [List.map_append, List.map_singleton, List.append_assoc, ← List.cons_append] at hm
  obtain ⟨h₁, h₂, h₃⟩ := List.pairwise_append.mp hm
  constructor
  · rw [← List.cons_append]
    exact List.pairwise_append.mpr ⟨h₁, by simp, fun a ha b hb =>
      h₃ a ha b (by rw [List.mem_singleton.mp hb]; simp)⟩
  · simpa using h₂

theorem Monotone.weaken {q' : Int} (hm : Monotone start h q) (hle : q ≤ q') :
    Monotone start h q' := by
  unfold Monotone at hm ⊢
  rw [← List.cons_append] at hm ⊢
  obtain ⟨h₁, -, h₃⟩ := List.pairwise_append.mp hm
  refine List.pairwise_append.mpr ⟨h₁, by simp, fun a ha b hb => ?_⟩
  rw [List.mem_singleton.mp hb]
  exact le_trans (h₃ a ha q (by simp)) hle

theorem Monotone.start_le (hm : Monotone start h q) : start ≤ q :=
  (List.pairwise_cons.mp hm).1 q (by simp)

@[simp] theorem latestCleanup_request {t : Int} {c : Call} {answer : Option Response} :
    latestCleanup start (h ++ [.request t c answer]) = latestCleanup start h := by
  simp [latestCleanup]

@[simp] theorem latestCleanup_cleanup {t : Int} :
    latestCleanup start (h ++ [.cleanup t]) = t := by
  simp [latestCleanup]

theorem Monotone.latestCleanup_le (hm : Monotone start h q) : latestCleanup start h ≤ q := by
  induction h using List.reverseRecOn generalizing q with
  | nil => exact hm.start_le
  | append_singleton h x ih =>
    obtain ⟨hm, hx⟩ := hm.snoc
    cases x with
    | request t c answer =>
      rw [latestCleanup_request]
      exact le_trans (ih hm) hx
    | cleanup t =>
      rw [latestCleanup_cleanup]
      exact hx

/-! ## The invariant -/

variable {formatTime : Int → Bytes} {T : Int} {r r' : NodeRegistry}

/-- What the status of a record says after a timed run, with the latest
    cleanup at `latest`. -/
structure Windowed (T start latest now : Int) (record : NodeRecord) : Prop where
  since : start ≤ record.lastSeen
  healthy : record.status = .healthy → latest ≤ record.lastSeen + T
  unhealthy : record.status = .unhealthy → T < now - record.lastSeen

theorem Windowed.later {latest now now' : Int} {record : NodeRecord}
    (hw : Windowed T start latest now record) (hle : now ≤ now') :
    Windowed T start latest now' record :=
  ⟨hw.since, hw.healthy, fun h => by have := hw.unhealthy h; omega⟩

theorem Windowed.refreshed (hT : 0 ≤ T) {latest now : Int} (hstart : start ≤ now)
    (hlatest : latest ≤ now) (node : NodeRegistration) :
    Windowed T start latest now ⟨node, now, .healthy⟩ :=
  ⟨hstart, fun _ => by dsimp only; omega, nofun⟩

/-- A cleanup after which a node is still healthy has seen it in time. -/
theorem Windowed.cleanup (hT : 0 ≤ T) {latest t : Int} {record : NodeRecord}
    (hw : Windowed T start latest t record) (hlong : T < 2 ^ 63 - 1 ∨ t - start ≤ 2 ^ 63 - 1) :
    Windowed T start t t ((NodeRegistry.markNode t T record).getD record) := by
  obtain ⟨-, hseen, hstatus⟩ := NodeRegistry.markNode_getD t T record
  have hsince := hw.since
  -- the subtraction saturates only beyond the bound that hlong excludes
  have hexact : T < timeSub t record.lastSeen ↔ T < t - record.lastSeen := by
    unfold timeSub
    omega
  rw [hexact] at hstatus
  refine ⟨hseen ▸ hsince, fun hhealthy => ?_, fun hunhealthy => ?_⟩
  · -- a healthy record has just been found within the time-out
    rw [hseen]
    by_contra hlate
    have hmarked := hstatus.mpr (.inr (by omega))
    rw [hhealthy] at hmarked
    cases hmarked
  · rw [hseen]
    exact (hstatus.mp hunhealthy).elim hw.unhealthy id

/-- Every record is in its window. -/
theorem windowed_of_run (hT : 0 ≤ T) (hlong : T < 2 ^ 63 - 1 ∨ q - start ≤ 2 ^ 63 - 1)
    (hrun : Steps (Serves formatTime T) .empty h r) (hm : Monotone start h q) :
    ∀ id record, r.get? id = some record →
      Windowed T start (latestCleanup start h) q record := by
  -- induction on the run; each request is one of four changes, or none
  induction hrun generalizing q with
  | nil => simp
  | @snoc h s s' x hrun hx ih =>
    obtain ⟨hm, hle⟩ := hm.snoc
    have ih := ih (by omega) hm
    have hstart := hm.start_le
    have hlatest := hm.latestCleanup_le
    intro id record hrecord
    refine Windowed.later ?_ hle
    rcases serves_cases hx with ⟨rfl, c, answer, he⟩ | ⟨body, node, answer, he, -, rfl⟩ |
      ⟨nodeID, rfl, c, answer, he⟩ | ⟨nodeID, rfl, c, answer, he⟩ | ⟨order, horder, he, rfl⟩
    · rw [he, latestCleanup_request]
      exact ih id record hrecord
    · rw [he, latestCleanup_request]
      rw [NodeRegistry.get?_upsert] at hrecord
      -- a refresh is of now, everything else is as it was
      split_ifs at hrecord
      · rw [← Option.some.inj hrecord]
        exact .refreshed hT hstart hlatest node
      · exact ih id record hrecord
    · rw [he, latestCleanup_request]
      rw [NodeRegistry.get?_heartbeat] at hrecord
      split_ifs at hrecord
      · obtain ⟨old, -, rfl⟩ := Option.map_eq_some_iff.mp hrecord
        exact .refreshed hT hstart hlatest old.registration
      · exact ih id record hrecord
    · rw [he, latestCleanup_request]
      rw [NodeRegistry.get?_delete] at hrecord
      split_ifs at hrecord
      exact ih id record hrecord
    · -- the cleanup looks at every record, so its time is the latest now
      rw [NodeRegistry.get?_markUnhealthy horder] at hrecord
      obtain ⟨old, hold, rfl⟩ := Option.map_eq_some_iff.mp hrecord
      rw [he, latestCleanup_cleanup]
      exact (ih id old hold).cleanup hT (by omega)

/-! ## What is offered -/

/-- `GET /nodes` lists the nodes by type. -/
theorem runs_nodesHandler {t : Int} {answer : Option Response}
    (hrun : Runs (Performs t) r (Service.nodesHandler formatTime) answer r') :
    ∃ order : List (Bytes × NodeRecord), order.Perm r.entries ∧ answer =
      some (writeJSON statusOK ((NodeRegistry.groupByType order false).json formatTime)) := by
  obtain ⟨nodes, s, ⟨-, order, horder, rfl⟩, hrun⟩ := Runs.op_iff.mp hrun
  have hrun : Runs (Performs t) s (Prog.ret (S := Operations) (some (writeJSON statusOK
      ((NodeRegistry.NodesByTypeResponse.ofNodes (NodeRegistry.list order false)).json
        formatTime)))) answer r' := hrun
  rw [NodeRegistry.NodesByTypeResponse.ofNodes_list] at hrun
  exact ⟨order, horder, (Runs.ret_iff.mp hrun).1⟩

/-- The nodes of all three groups. -/
def NodeRegistry.NodesByTypeResponse.all (grouped : NodesByTypeResponse) : List NodeRecord :=
  grouped.guard ++ grouped.relay ++ grouped.exit

/-- What `GET /nodes` offers is what is healthy. -/
theorem mem_all_iff (hr : WellFormed r) {order : List (Bytes × NodeRecord)}
    (horder : order.Perm r.entries) {record : NodeRecord} :
    record ∈ (NodeRegistry.groupByType order false).all ↔
      r.get? record.registration.nodeID = some record ∧ record.status = .healthy := by
  unfold NodeRegistry.NodesByTypeResponse.all
  rw [(hr.partition horder false).complete.mem_iff, mem_list_iff horder]
  constructor
  · rintro ⟨⟨id, hid⟩, hhealthy⟩
    exact ⟨hr.keyed id record hid ▸ hid, by simpa using hhealthy⟩
  · rintro ⟨hget, hhealthy⟩
    exact ⟨⟨_, hget⟩, .inr hhealthy⟩

/-- **Failure detection**: in a timed run with time-out `T` whose latest
    cleanup is at most `I` before the query, nothing is offered that has
    been silent for longer than `T + I`, and everything is that has been
    seen within `T`. -/
theorem detection_window {I : Int} (hT : 0 ≤ T)
    (hlong : T < 2 ^ 63 - 1 ∨ q - start ≤ 2 ^ 63 - 1)
    (hrun : Steps (Serves formatTime T) .empty h r) (hm : Monotone start h q)
    (htick : q ≤ latestCleanup start h + I) :
    (∀ answer r', Runs (Performs q) r (Service.nodesHandler formatTime) answer r' →
      ∃ grouped : NodesByTypeResponse,
        answer = some (writeJSON statusOK (grouped.json formatTime)) ∧
        (∀ record ∈ grouped.all, q - (T + I) ≤ record.lastSeen) ∧
        ∀ id record, r.get? id = some record → q - T ≤ record.lastSeen →
          record ∈ grouped.all) ∧
    (∀ rawQuery answer r',
      Runs (Performs q) r (Service.circuitHandler formatTime rawQuery) answer r' →
      ∃ response, answer = some response ∧ (response.statusCode = statusOK →
        (∃ guard : NodeRecord, response = writeJSON statusOK (guardJson formatTime guard) ∧
          q - (T + I) ≤ guard.lastSeen) ∨
        ∃ circuit : CircuitResponse, response = writeJSON statusOK (circuit.json formatTime) ∧
          ∀ record ∈ [circuit.guard, circuit.relay, circuit.exit],
            q - (T + I) ≤ record.lastSeen)) := by
  have hr := wellFormed_of_run hrun
  have hwindow := windowed_of_run hT hlong hrun hm
  -- a healthy record has been seen since one time-out before the last cleanup
  have hfresh {id : Bytes} {record : NodeRecord} (hget : r.get? id = some record)
      (hhealthy : record.status = .healthy) : q - (T + I) ≤ record.lastSeen := by
    have := (hwindow id record hget).healthy hhealthy
    omega
  constructor
  · intro answer r' hserve
    obtain ⟨order, horder, hanswer⟩ := runs_nodesHandler hserve
    refine ⟨_, hanswer, fun record hrecord => ?_, fun id record hrecord hseen => ?_⟩
    · obtain ⟨hget, hhealthy⟩ := (mem_all_iff hr horder).mp hrecord
      exact hfresh hget hhealthy
    · rw [mem_all_iff hr horder, hr.keyed id record hrecord]
      refine ⟨hrecord, ?_⟩
      -- an unhealthy node has been silent for longer than the time-out
      cases hstatus : record.status with
      | healthy => rfl
      | unhealthy =>
        have := (hwindow id record hrecord).unhealthy hstatus
        omega
  · intro rawQuery answer r' hserve
    cases hhops : parseHops rawQuery with
    | error err =>
      unfold Service.circuitHandler at hserve
      rw [hhops] at hserve
      have hbad : (writeJSONError statusBadRequest err).statusCode ≠ statusOK := by
        simp [writeJSONError, writeJSON, statusBadRequest, statusOK]
      exact ⟨_, (Runs.ret_iff.mp hserve).1, fun hok => absurd hok hbad⟩
    | ok hops =>
      obtain ⟨response, hanswer, hcircuit⟩ := runs_circuitHandler hr hhops hserve
      refine ⟨response, hanswer, fun hok => ?_⟩
      cases hcircuit with
      | @one guard hguard =>
        exact .inl ⟨guard, rfl, hfresh hguard.registered hguard.healthy⟩
      | @three circuit hguard hrelay hexit =>
        refine .inr ⟨circuit, rfl, ?_⟩
        -- the three hops are healthy records of the registry
        simp only [List.forall_mem_cons, List.not_mem_nil, false_implies, implies_true, and_true]
        exact ⟨hfresh hguard.registered hguard.healthy, hfresh hrelay.registered hrelay.healthy,
          hfresh hexit.registered hexit.healthy⟩
      | unavailable hnone => exact absurd hok (by decide)

namespace Sample

/-- A guard and a relay register at 0, and only the guard sends a heartbeat,
    at 25. -/
def joined : NodeRegistry := register (register .empty liveNode) relayNode

def refreshed : NodeRegistry :=
  (Request.answer (fun _ => []) joined 25 (.heartbeat liveNode.nodeID)).2

/-- The health monitor cleans up at 40. -/
def cleaned : NodeRegistry := (cleanupUnhealthyNodes refreshed refreshed.entries 40 30).2

theorem run_cleaned : ∃ h, Steps (Serves (fun _ => []) 30) .empty h cleaned ∧
    h.map Exchange.time = [0, 0, 25, 40] ∧ latestCleanup 0 h = 40 := by
  have hguard := serves_registering .empty liveNode
  have hrelay : Serves (fun _ => []) 30 (register .empty liveNode) _ joined :=
    serves_registering _ relayNode
  have hbeat : Serves (fun _ => []) 30 joined _ refreshed :=
    serves_update joined 25 (.heartbeat liveNode.nodeID)
  have hclean : Serves (fun _ => []) 30 refreshed (.cleanup 40) cleaned :=
    .cleanup 40 refreshed.entries (.refl _)
  have hrun := (((Steps.single hguard).snoc hrelay).snoc hbeat).snoc hclean
  exact ⟨_, hrun, by simp [registering, Exchange.time], latestCleanup_cleanup⟩

theorem get?_liveNode : cleaned.get? liveNode.nodeID = some ⟨liveNode, 25, .healthy⟩ := by
  decide +kernel

end Sample

/-- At 54 the guard is listed, and nothing that has been silent since 0, as
    the relay has. -/
theorem detection_window_sample :
    (∃ answer r', ∃ grouped : NodesByTypeResponse,
      Runs (Performs 54) Sample.cleaned (Service.nodesHandler fun _ => []) answer r' ∧
      answer = some (writeJSON statusOK (grouped.json fun _ => [])) ∧
      ⟨Sample.liveNode, 25, .healthy⟩ ∈ grouped.all ∧
      ∀ record ∈ grouped.all, record.lastSeen ≠ 0) ∧
    Sample.cleaned.get? Sample.relayNode.nodeID = some ⟨Sample.relayNode, 0, .unhealthy⟩ := by
  obtain ⟨h, hrun, htimes, hlatest⟩ := Sample.run_cleaned
  have hm : Monotone 0 h 54 := by
    unfold Monotone
    rw [htimes]
    decide
  have hserve : Runs (Performs 54) Sample.cleaned (Service.nodesHandler fun _ => []) _ _ :=
    .op ⟨rfl, _, .refl _, rfl⟩ .ret
  obtain ⟨hnodes, -⟩ := @detection_window _ 54 h _ 30 Sample.cleaned 15 (by decide)
    (.inl (by decide)) hrun hm (by rw [hlatest]; decide)
  obtain ⟨grouped, hanswer, hsilent, hseen⟩ := hnodes _ _ hserve
  refine ⟨⟨_, _, grouped, hserve, hanswer, hseen _ _ Sample.get?_liveNode (by decide), ?_⟩,
    by decide +kernel⟩
  intro record hrecord hzero
  have := hsilent record hrecord
  omega

end HopVault.Directory
