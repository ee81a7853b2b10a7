import HopVault.Directory.WellFormed

/-! # Readings of the clock that are applied late

    A handler reads the clock before it takes the lock of the registry, so
    requests may be applied in another order than they have read the clock.
    What the registry keeps is the reading of the request applied last.
    That is the latest reading, and stays so, in a run in which nothing
    overtakes. -/

namespace HopVault.Directory

open Framework Framework.Json
open NodeRegistry (Entry Does)
open NodeRegistry.Entry (Upserts Deletes Refreshes)

/-! ## Handlers in flight -/

/-- The directory server with its clock and the handlers in flight. -/
structure DirectoryServer where
  registry : NodeRegistry
  clock : Int
  handlers : List (Service (Option Response))

inductive Happening where
  | arrives (q : Request)
  | clock (t : Int)
  /-- A handler performs its next operation. -/
  | performs (e : Operation) (a : e.Ans)
  | cleanup (t : Int) (transitions : List NodeRecord)

/-- One step; any handler may move. -/
inductive Moves (formatTime : Int → Bytes) (heartbeatTimeout : Int) :
    DirectoryServer → Happening → DirectoryServer → Prop
  | arrives {s : DirectoryServer} (q : Request) :
      Moves formatTime heartbeatTimeout s (.arrives q)
        { s with handlers := s.handlers ++ [(Call.update q).handler formatTime] }
  | clock {s : DirectoryServer} (t : Int) : s.clock ≤ t →
      Moves formatTime heartbeatTimeout s (.clock t) { s with clock := t }
  | performs {s : DirectoryServer} (before after : List (Service (Option Response)))
      {e : Operation} {k : e.Ans → Service (Option Response)} {a : e.Ans} {r' : NodeRegistry} :
      s.handlers = before ++ .op e k :: after → Performs s.clock s.registry e a r' →
      Moves formatTime heartbeatTimeout s (.performs e a) ⟨r', s.clock, before ++ k a :: after⟩
  | cleanup {s : DirectoryServer} (t : Int) (order : List (Bytes × NodeRecord)) : t ≤ s.clock →
      order.Perm s.registry.entries →
      Moves formatTime heartbeatTimeout s
        (.cleanup t (s.registry.markUnhealthy order t heartbeatTimeout).1)
        { s with registry := (s.registry.markUnhealthy order t heartbeatTimeout).2 }

def DirectoryServer.start (t : Int) : DirectoryServer := ⟨.empty, t, []⟩

/-- What a step is to the registry. -/
def Happening.entry (heartbeatTimeout : Int) : Happening → Option Entry
  | performs (.upsert node now) _ => some (.upsert node now)
  | performs (.heartbeat nodeID now) record => some (.heartbeat nodeID now record.isSome)
  | performs (.delete nodeID) deleted => some (.delete nodeID deleted)
  | cleanup t transitions => some (.markUnhealthy t heartbeatTimeout transitions)
  | _ => none

/-- The operations on the registry, in the order in which they are applied. -/
def applied (heartbeatTimeout : Int) (h : List Happening) : List Entry :=
  h.filterMap (Happening.entry heartbeatTimeout)

variable {formatTime : Int → Bytes} {heartbeatTimeout : Int} {s s' : DirectoryServer}
  {h : List Happening} {x : Happening}

/-- A step is one operation on the registry, or none. -/
theorem does_of_moves (hmove : Moves formatTime heartbeatTimeout s x s') :
    (x.entry heartbeatTimeout = none ∧ s'.registry = s.registry) ∨
    ∃ e, x.entry heartbeatTimeout = some e ∧ Does s.registry e s'.registry := by
  cases hmove with
  | arrives q => exact .inl ⟨rfl, rfl⟩
  | clock t _ => exact .inl ⟨rfl, rfl⟩
  | @performs before after e k a r' hhandlers hperforms =>
    -- of a handler's operations three change the registry; the rest only read
    cases e with
    | now => exact .inl ⟨rfl, hperforms.2⟩
    | upsert node now =>
      obtain rfl : r' = (s.registry.upsert node now).2 := congrArg Prod.snd hperforms
      exact .inr ⟨_, rfl, .upsert node now⟩
    | heartbeat nodeID now =>
      obtain rfl : a = (s.registry.heartbeat nodeID now).1 := congrArg Prod.fst hperforms
      obtain rfl : r' = (s.registry.heartbeat nodeID now).2 := congrArg Prod.snd hperforms
      exact .inr ⟨_, rfl, .heartbeat nodeID now⟩
    | delete nodeID =>
      obtain rfl : a = (s.registry.delete nodeID).1 := congrArg Prod.fst hperforms
      obtain rfl : r' = (s.registry.delete nodeID).2 := congrArg Prod.snd hperforms
      exact .inr ⟨_, rfl, .delete nodeID⟩
    | list includeUnhealthy => exact .inl ⟨rfl, hperforms.1⟩
    | randomIntn n => exact .inl ⟨rfl, hperforms.1⟩
  | cleanup t order _ horder => exact .inr ⟨_, rfl, .markUnhealthy t heartbeatTimeout order horder⟩

/-- What happens at the server is a run of the registry. -/
theorem does_of_run (hrun : Steps (Moves formatTime heartbeatTimeout) s h s') :
    Steps Does s.registry (applied heartbeatTimeout h) s'.registry := by
  induction hrun with
  | nil => exact .nil
  | snoc _ hmove ih =>
    unfold applied at ih ⊢
    rw [List.filterMap_append]
    rcases does_of_moves hmove with ⟨hnone, hsame⟩ | ⟨e, hsome, hdoes⟩
    · rw [hsame]
      simpa [hnone] using ih
    · simpa [hsome] using ih.snoc hdoes

/-! ## Order of application -/

/-- A request to the node has read the clock no earlier than any that has
    been applied to it before. -/
def InOrder (id : Bytes) (es : List Entry) : Prop :=
  es.Pairwise fun x e => Refreshes id x → Refreshes id e →
    ∀ t u, x.time = some t → e.time = some u → t ≤ u

/-- The two entries of a history that is in order. -/
theorem InOrder.le {id : Bytes} {es before after : List Entry} {x e : Entry} {t u : Int}
    (horder : InOrder id es) (hsplit : es = before ++ e :: after) (hx : x ∈ before)
    (hrefresh : Refreshes id x) (he : Refreshes id e) (ht : x.time = some t)
    (hu : e.time = some u) : t ≤ u := by
  subst hsplit
  exact (List.pairwise_append.mp horder).2.2 x hx e (by simp) hrefresh he t u ht hu

variable {id : Bytes} {record record' : NodeRecord} {es since : List Entry}

/-- In a last part that is in order, no request to the node has read a later
    time than the one applied last. -/
theorem time_le_lastSeen (ht : NodeRegistry.Traced es id record) (hsince : since <:+ es)
    (horder : InOrder id since) {x : Entry} {t : Int} (hx : x ∈ since) (hrefresh : Refreshes id x)
    (htime : x.time = some t) : t ≤ record.lastSeen := by
  obtain ⟨e, after, hlatest, hseen, -, -⟩ := ht.refresh
  have hlatest := hlatest.suffix hsince hx hrefresh
  obtain ⟨before, hsplit⟩ := hlatest.split
  rw [hsplit] at hx
  rcases List.mem_append.mp hx with hx | hx
  · exact horder.le hsplit hx hrefresh hlatest.holds htime hseen
  · rcases List.mem_cons.mp hx with rfl | hx
    · exact le_of_eq (Option.some.inj (htime.symm.trans hseen))
    · exact absurd hrefresh (hlatest.later x hx)

/-- In order, one more entry does not lower the time of a record that stays. -/
theorem lastSeen_le (ht : NodeRegistry.Traced es id record) {more : List Entry}
    (ht' : NodeRegistry.Traced (es ++ more) id record') (hsince : since <:+ es) {x : Entry}
    (hx : x ∈ since) (hrefresh : Refreshes id x) (horder : InOrder id (since ++ more)) :
    record.lastSeen ≤ record'.lastSeen := by
  obtain ⟨e, after, hlatest, hseen, -, -⟩ := ht.refresh
  have hmem := (hlatest.suffix hsince hx hrefresh).mem
  obtain ⟨past, rfl⟩ := hsince
  exact time_le_lastSeen ht' ⟨past, by rw [List.append_assoc]⟩ horder (List.mem_append_left _ hmem)
    hlatest.holds hseen

/-! ## Requests in flight at a cleanup -/

/-- The handler has read the clock at `u` for a request to the node, and
    applies it next. -/
def Applies (id : Bytes) (u : Int) : Service (Option Response) → Prop
  | .op (.upsert node now) _ => node.nodeID = id ∧ now = u
  | .op (.heartbeat nodeID now) _ => nodeID = id ∧ now = u
  | _ => False

/-- A request to the node that has read the clock at `u` waits for the lock. -/
def Waits (id : Bytes) (u : Int) (s : DirectoryServer) : Prop := ∃ p ∈ s.handlers, Applies id u p

/-- When a cleanup at `t` marks the node, no request to it waits that has
    read the clock longer than the time-out before. -/
def Quiet (heartbeatTimeout : Int) (id : Bytes) (s : DirectoryServer) : Happening → Prop
  | .cleanup t transitions => (∃ marked ∈ transitions, marked.registration.nodeID = id) →
      ∀ u, Waits id u s → t - u ≤ heartbeatTimeout
  | _ => True

/-- A step of a run in which none does. -/
def MovesQuietly (formatTime : Int → Bytes) (heartbeatTimeout : Int) (id : Bytes)
    (s : DirectoryServer) (x : Happening) (s' : DirectoryServer) : Prop :=
  Moves formatTime heartbeatTimeout s x s' ∧ Quiet heartbeatTimeout id s x

/-- The handler performs one more operation. -/
def Last (p : Service (Option Response)) : Prop :=
  ∃ (e : Operation) (k : e.Ans → Service (Option Response)),
    p = .op e k ∧ ∀ a, ∃ answer, k a = .ret answer

/-- How far a handler has come: it is done, it reads the clock next and then
    applies the request with what it has read, or it performs its last
    operation. -/
inductive Stage : Service (Option Response) → Prop
  | done (answer : Option Response) : Stage (.ret answer)
  | reads {k : Int → Service (Option Response)} :
      (∀ now, Last (k now) ∧ ∀ id u, Applies id u (k now) → u = now) → Stage (.op .now k)
  | last {p : Service (Option Response)} : Last p → Stage p

/-- A handler that has just been started. -/
theorem stage_handler (q : Request) : Stage ((Call.update q).handler formatTime) ∧
    ∀ id u, ¬Applies id u ((Call.update q).handler formatTime) := by
  cases q with
  | register body =>
    simp only [Call.handler, Service.registerHandler]
    split
    · exact ⟨.done _, fun _ _ h => h⟩
    · split
      · exact ⟨.done _, fun _ _ h => h⟩
      · split
        · exact ⟨.done _, fun _ _ h => h⟩
        · exact ⟨.reads fun now => ⟨⟨_, _, rfl, fun _ => ⟨_, rfl⟩⟩, fun _ _ h => h.2.symm⟩,
          fun _ _ h => h⟩
  | heartbeat pathValue =>
    simp only [Call.handler, Service.heartbeatHandler]
    split
    · exact ⟨.done _, fun _ _ h => h⟩
    · exact ⟨.reads fun now => ⟨⟨_, _, rfl, fun _ => ⟨_, rfl⟩⟩, fun _ _ h => h.2.symm⟩,
        fun _ _ h => h⟩
  | deregister pathValue =>
    simp only [Call.handler, Service.deregisterHandler]
    split
    · exact ⟨.done _, fun _ _ h => h⟩
    · refine ⟨.last ⟨_, _, rfl, fun deleted => ?_⟩, fun _ _ h => h⟩
      cases deleted
      · exact ⟨_, rfl⟩
      · exact ⟨_, rfl⟩

/-- The entry is of a cleanup at `t` that marked the node. -/
def MarksAt (id : Bytes) (t : Int) : Entry → Prop
  | .markUnhealthy now _ transitions =>
      now = t ∧ ∃ marked ∈ transitions, marked.registration.nodeID = id
  | _ => False

/-- What a quiet run keeps, `es` being what it has applied: no request to
    the node has been applied after a cleanup that marked it and for which
    its reading was too old, nor does one wait. -/
structure Undisturbed (heartbeatTimeout : Int) (id : Bytes) (es : List Entry)
    (s : DirectoryServer) : Prop where
  applied : es.Pairwise fun x e => ∀ t, MarksAt id t x → Refreshes id e →
    ∀ u, e.time = some u → t - u ≤ heartbeatTimeout
  clock : ∀ x ∈ es, ∀ t, MarksAt id t x → t ≤ s.clock
  waiting : ∀ x ∈ es, ∀ t, MarksAt id t x → ∀ u, Waits id u s → t - u ≤ heartbeatTimeout
  stages : ∀ p ∈ s.handlers, Stage p

/-- What a handler performs for the node is what it waited with. -/
theorem waits_of_refresh {e : Operation} {a : e.Ans} {k : e.Ans → Service (Option Response)}
    {y : Entry} {u : Int} (hy : (Happening.performs e a).entry heartbeatTimeout = some y)
    (hrefresh : Refreshes id y) (htime : y.time = some u) : Applies id u (.op e k) := by
  cases e <;> cases hy
  · exact ⟨hrefresh, Option.some.inj htime⟩
  · exact ⟨hrefresh.1, Option.some.inj htime⟩
  · exact hrefresh.elim

/-- After a move a handler waits with what the clock says, if at all. -/
theorem Stage.performs {e : Operation} {k : e.Ans → Service (Option Response)} {t : Int}
    {r r' : NodeRegistry} {a : e.Ans} (h : Stage (.op e k)) (hperforms : Performs t r e a r') :
    Stage (k a) ∧ ∀ id u, Applies id u (k a) → u = t := by
  have hlast (hret : ∃ answer, k a = .ret answer) :
      Stage (k a) ∧ ∀ id u, Applies id u (k a) → u = t := by
    obtain ⟨answer, hret⟩ := hret
    rw [hret]
    exact ⟨.done answer, fun _ _ h => h.elim⟩
  cases h with
  | reads hk =>
    obtain ⟨rfl, -⟩ := hperforms
    exact ⟨.last (hk a).1, (hk a).2⟩
  | last hp =>
    obtain ⟨e', k', heq, hk⟩ := hp
    cases heq
    exact hlast (hk a)

/-- One more entry: a request that was waiting, or a cleanup that found none
    waiting for too long. -/
theorem Undisturbed.snoc (hT : 0 ≤ heartbeatTimeout) (hs : Undisturbed heartbeatTimeout id es s)
    {entry : Option Entry} (hclock : s.clock ≤ s'.clock)
    (hrefresh : ∀ y ∈ entry, Refreshes id y → ∀ u, y.time = some u → Waits id u s)
    (hmarks : ∀ y ∈ entry, ∀ t, MarksAt id t y →
      t ≤ s'.clock ∧ ∀ u, Waits id u s' → t - u ≤ heartbeatTimeout)
    (hwaits : ∀ u, Waits id u s' → Waits id u s ∨ u = s'.clock)
    (hstages : ∀ p ∈ s'.handlers, Stage p) :
    Undisturbed heartbeatTimeout id (es ++ entry.toList) s' := by
  have hmem {y : Entry} (hy : y ∈ es ++ entry.toList) : y ∈ es ∨ y ∈ entry := by
    simpa using hy
  refine ⟨?_, fun y hy t ht => ?_, fun y hy t ht u hu => ?_, hstages⟩
  · refine List.pairwise_append.mpr ⟨hs.applied, ?_, fun x hx y hy t ht href u hu => ?_⟩
    · cases entry <;> simp
    · exact hs.waiting x hx t ht u (hrefresh y (by simpa using hy) href u hu)
  · rcases hmem hy with hy | hy
    · exact le_trans (hs.clock y hy t ht) hclock
    · exact (hmarks y hy t ht).1
  · rcases hmem hy with hy | hy
    · rcases hwaits u hu with hu | rfl
      · exact hs.waiting y hy t ht u hu
      · -- it has read the clock after the cleanup
        have := hs.clock y hy t ht
        omega
    · exact (hmarks y hy t ht).2 u hu

theorem Undisturbed.moves (hT : 0 ≤ heartbeatTimeout)
    (hs : Undisturbed heartbeatTimeout id es s)
    (hmove : MovesQuietly formatTime heartbeatTimeout id s x s') :
    Undisturbed heartbeatTimeout id (es ++ (x.entry heartbeatTimeout).toList) s' := by
  obtain ⟨hmove, hquiet⟩ := hmove
  cases hmove with
  | arrives q =>
    obtain ⟨hstage, hfresh⟩ := @stage_handler formatTime q
    refine hs.snoc hT (le_refl _) (fun _ h => by cases h) (fun _ h => by cases h) ?_ ?_
    · -- the new handler has not read the clock yet
      rintro u ⟨p, hp, hu⟩
      rcases List.mem_append.mp hp with hp | hp
      · exact .inl ⟨p, hp, hu⟩
      · rw [List.mem_singleton.mp hp] at hu
        exact absurd hu (hfresh id u)
    · intro p hp
      rcases List.mem_append.mp hp with hp | hp
      · exact hs.stages p hp
      · exact List.mem_singleton.mp hp ▸ hstage
  | clock t hle =>
    exact hs.snoc hT hle (fun _ h => by cases h) (fun _ h => by cases h) (fun _ hu => .inl hu)
      hs.stages
  | @performs before after e k a r' hhandlers hperforms =>
    have hold {p : Service (Option Response)} (hp : p ∈ before ++ .op e k :: after) :
        p ∈ s.handlers := hhandlers ▸ hp
    have hmem : Prog.op e k ∈ s.handlers := hold (by simp)
    obtain ⟨hstage, hreads⟩ := (hs.stages _ hmem).performs hperforms
    have hnew {p : Service (Option Response)} (hp : p ∈ before ++ k a :: after) :
        p = k a ∨ p ∈ s.handlers := by
      rcases List.mem_append.mp hp with hp | hp
      · exact .inr (hold (List.mem_append_left _ hp))
      · exact (List.mem_cons.mp hp).imp_right fun hp => hold (by simp [hp])
    refine hs.snoc hT (le_refl _)
      (fun y hy href u hu => ⟨_, hmem, waits_of_refresh hy href hu⟩) (fun y hy t ht => ?_) ?_ ?_
    · -- a handler makes no cleanup
      cases e <;> cases hy <;> exact ht.elim
    · rintro u ⟨p, hp, hu⟩
      rcases hnew hp with rfl | hp
      · exact .inr (hreads id u hu)
      · exact .inl ⟨p, hp, hu⟩
    · intro p hp
      rcases hnew hp with rfl | hp
      · exact hstage
      · exact hs.stages p hp
  | cleanup t order hle horder =>
    refine hs.snoc hT (le_refl _) ?_ ?_ (fun _ hu => .inl hu) hs.stages
    · rintro y ⟨⟩ href
      exact href.elim
    · rintro y ⟨⟩ t' ⟨rfl, hmarked⟩
      exact ⟨hle, hquiet hmarked⟩

/-- So it is after every such run. -/
theorem undisturbed_of_run (hT : 0 ≤ heartbeatTimeout) {t₀ : Int}
    (hrun : Steps (MovesQuietly formatTime heartbeatTimeout id) (.start t₀) h s) :
    Undisturbed heartbeatTimeout id (applied heartbeatTimeout h) s := by
  refine hrun.induct (I := fun h s => Undisturbed heartbeatTimeout id (applied heartbeatTimeout h) s)
    ⟨.nil, by simp [applied], by simp [applied], by simp [DirectoryServer.start]⟩
    fun h s x s' _ hs hmove => ?_
  have happend : applied heartbeatTimeout (h ++ [x]) =
      applied heartbeatTimeout h ++ (x.entry heartbeatTimeout).toList := by
    unfold applied
    rw [List.filterMap_append]
    cases hx : x.entry heartbeatTimeout <;> simp [hx]
  rw [happend]
  exact hs.moves hT hmove

/-- **What `LastSeen` is** in a server whose handlers interleave. It is the
    clock reading of the request applied last. Since any point from which on
    requests to the node are applied in the order of their readings, it is
    the largest and does not go back. As long as no request to the node
    whose reading is too old waits while a cleanup marks it, none makes it
    healthy again. -/
theorem lastSeen_of_run {t₀ : Int}
    (hrun : Steps (Moves formatTime heartbeatTimeout) (.start t₀) h s) :
    (∀ record, s.registry.get? id = some record →
      (∃ e after, Latest (Refreshes id) (applied heartbeatTimeout h) e after ∧
        e.time = some record.lastSeen ∧ ∀ y ∈ after, ¬Deletes id y) ∧
      ∀ since, since <:+ applied heartbeatTimeout h →
        (InOrder id since →
          ∀ y ∈ since, Refreshes id y → ∀ t, y.time = some t → t ≤ record.lastSeen) ∧
        ∀ x s' record', Moves formatTime heartbeatTimeout s x s' → (∃ y ∈ since, Refreshes id y) →
          InOrder id (since ++ applied heartbeatTimeout [x]) →
          s'.registry.get? id = some record' → record.lastSeen ≤ record'.lastSeen) ∧
    (0 ≤ heartbeatTimeout → Steps (MovesQuietly formatTime heartbeatTimeout id) (.start t₀) h s →
      ∀ before middle after t timeout transitions e u,
        applied heartbeatTimeout h =
          before ++ .markUnhealthy t timeout transitions :: (middle ++ e :: after) →
        (∃ marked ∈ transitions, marked.registration.nodeID = id) →
        Refreshes id e → e.time = some u → ¬heartbeatTimeout < t - u) := by
  have htraced {h : List Happening} {s : DirectoryServer} {record : NodeRecord}
      (hrun : Steps (Moves formatTime heartbeatTimeout) (.start t₀) h s)
      (hrecord : s.registry.get? id = some record) :
      NodeRegistry.Traced (applied heartbeatTimeout h) id record :=
    (NodeRegistry.determined (does_of_run hrun) id).traced record hrecord
  -- each part is about the entries that the run has applied, in their order
  refine ⟨fun record hrecord => ⟨?_, fun since hsince => ⟨?_, ?_⟩⟩, ?_⟩
  · obtain ⟨e, after, hlatest, hseen, hkept, -⟩ := (htraced hrun hrecord).refresh
    exact ⟨e, after, hlatest, hseen, hkept⟩
  · intro horder y hy hrefresh t htime
    exact time_le_lastSeen (htraced hrun hrecord) hsince horder hy hrefresh htime
  · intro x s' record' hmove hrefreshed horder hrecord'
    obtain ⟨y, hy, hrefresh⟩ := hrefreshed
    have happend : applied heartbeatTimeout (h ++ [x]) =
        applied heartbeatTimeout h ++ applied heartbeatTimeout [x] := List.filterMap_append
    have ht' := htraced (hrun.snoc hmove) hrecord'
    rw [happend] at ht'
    exact lastSeen_le (htraced hrun hrecord) ht' hsince hy hrefresh horder
  · intro hT hquiet before middle after t timeout transitions e u hsplit hmarked hrefresh htime
    have hpairs := (undisturbed_of_run hT hquiet).applied
    rw [hsplit, List.pairwise_append, List.pairwise_cons] at hpairs
    obtain ⟨-, ⟨hlater, -⟩, -⟩ := hpairs
    have := hlater e (by simp) t ⟨rfl, hmarked⟩ hrefresh u htime
    omega

/-! ## Two heartbeats at once -/

namespace Sample

/-- What the handlers of the node's registration and of its heartbeats go on
    with. -/
def joining (record : NodeRecord) : Service (Option Response) :=
  pure (some (writeJSON statusCreated (record.json fun _ => [])))

def beating (record : Option NodeRecord) : Service (Option Response) :=
  pure (some (Service.heartbeatAnswer (fun _ => []) record))

theorem registerHandler_eq : (Call.update (.register (registerBody liveNode))).handler (fun _ => []) =
    .op .now fun now => .op (.upsert liveNode.coerced now) joining := by
  have hmore : decoderMore [] = false := rfl
  have hvalid : validateNodeRegistration liveNode.coerced = .ok () := by decide +kernel
  simp only [Call.handler, Service.registerHandler, decodeStrict_registerBody, hmore,
    Bool.false_eq_true, if_false, hvalid]
  rfl

/-- The node's ID in the path of its heartbeats, as the handler reads it. -/
def pathID : Bytes := trimSpace liveNode.nodeID

theorem pathID_eq : pathID = liveNode.nodeID := by decide +kernel

theorem heartbeatHandler_eq : (Call.update (.heartbeat liveNode.nodeID)).handler (fun _ => []) =
    .op .now fun now => .op (.heartbeat pathID now) beating := by
  have hnonempty : trimSpace liveNode.nodeID ≠ [] := by decide +kernel
  simp only [Call.handler, Service.heartbeatHandler]
  rw [if_neg hnonempty]
  rfl

/-- A heartbeat that has read the clock at `u`. -/
def waiting (u : Int) : Service (Option Response) := .op (.heartbeat pathID u) beating

theorem moves_performs {r r' : NodeRegistry} {t : Int} (before after : List (Service (Option Response)))
    {e : Operation} (k : e.Ans → Service (Option Response)) {a : e.Ans}
    (hperforms : Performs t r e a r') :
    MovesQuietly (fun _ => []) 30 liveNode.nodeID ⟨r, t, before ++ .op e k :: after⟩
      (.performs e a) ⟨r', t, before ++ k a :: after⟩ :=
  ⟨.performs before after rfl hperforms, trivial⟩

/-- The registry after the node has registered at 0, and what is left of the
    handler. -/
def registered₁ : NodeRegistry := (NodeRegistry.upsert .empty liveNode.coerced 0).2

def done₁ : Service (Option Response) :=
  joining (NodeRegistry.upsert .empty liveNode.coerced 0).1

theorem run_registered : ∃ h, Steps (MovesQuietly (fun _ => []) 30 liveNode.nodeID) (.start 0) h
    ⟨registered₁, 0, [done₁]⟩ ∧
    applied 30 h = [.upsert liveNode.coerced 0] := by
  have harrives : MovesQuietly (fun _ => []) 30 liveNode.nodeID (.start 0) (.arrives _)
      ⟨.empty, 0, [_]⟩ := ⟨.arrives (.register (registerBody liveNode)), trivial⟩
  rw [registerHandler_eq] at harrives
  exact ⟨_, ((Steps.single harrives).snoc (moves_performs [] [] _ ⟨rfl, rfl⟩)).snoc
    (moves_performs [] [] _ rfl), rfl⟩

/-- A heartbeat arrives and reads the clock at `u`. -/
theorem run_read (r : NodeRegistry) {t u : Int} (hle : t ≤ u)
    (handlers : List (Service (Option Response))) : ∃ h,
    Steps (MovesQuietly (fun _ => []) 30 liveNode.nodeID) ⟨r, t, handlers⟩ h
      ⟨r, u, handlers ++ [waiting u]⟩ ∧ applied 30 h = [] := by
  have harrives : MovesQuietly (fun _ => []) 30 liveNode.nodeID ⟨r, t, handlers⟩ (.arrives _)
      ⟨r, t, handlers ++ [_]⟩ := ⟨.arrives (.heartbeat liveNode.nodeID), trivial⟩
  rw [heartbeatHandler_eq] at harrives
  exact ⟨_, ((Steps.single harrives).snoc ⟨.clock u hle, trivial⟩).snoc
    (moves_performs handlers [] _ ⟨rfl, rfl⟩), rfl⟩

/-- It is applied. -/
theorem run_apply (r : NodeRegistry) (t u : Int) (before after : List (Service (Option Response))) :
    MovesQuietly (fun _ => []) 30 liveNode.nodeID ⟨r, t, before ++ waiting u :: after⟩
      (.performs (.heartbeat pathID u) (r.heartbeat pathID u).1)
      ⟨(r.heartbeat pathID u).2, t, before ++ beating (r.heartbeat pathID u).1 :: after⟩ :=
  @moves_performs r _ t before after (.heartbeat pathID u) beating _ rfl

/-- The registry after a cleanup. -/
def cleanup (r : NodeRegistry) (t : Int) : NodeRegistry := (r.markUnhealthy r.entries t 30).2

end Sample

open Sample in
/-- A heartbeat reads the clock at 10 and is overtaken by one that reads it
    at 100 and by a cleanup at 150, which marks the node unhealthy. When it
    is applied, the node was last seen at 10 and is healthy. -/
theorem lastSeen_goes_back : ∃ h s x s' record record',
    Steps (Moves (fun _ => []) 30) (.start 0) h s ∧ Moves (fun _ => []) 30 s x s' ∧
    s.registry.get? liveNode.nodeID = some record ∧ record.lastSeen = 100 ∧
    record.status = .unhealthy ∧
    s'.registry.get? liveNode.nodeID = some record' ∧ record'.lastSeen = 10 ∧
    record'.status = .healthy := by
  let refreshed := (registered₁.heartbeat pathID 100).2
  have hquiet {s s' : DirectoryServer} {h : List Happening}
      (hrun : Steps (MovesQuietly (fun _ => []) 30 liveNode.nodeID) s h s') :
      Steps (Moves (fun _ => []) 30) s h s' := hrun.mono fun _ _ _ h => h.1
  obtain ⟨_, hregister, -⟩ := run_registered
  -- two heartbeats read the clock, and the second one is applied
  obtain ⟨_, hfirst, -⟩ := run_read registered₁ (show (0 : Int) ≤ 10 by decide) [done₁]
  obtain ⟨_, hsecond, -⟩ := run_read registered₁ (show (10 : Int) ≤ 100 by decide) [done₁, waiting 10]
  have happlied := ((hregister.append hfirst).append hsecond).snoc
    (run_apply registered₁ 100 100 [done₁, waiting 10] [])
  -- a cleanup marks the node, and only then the first one is applied
  have hcleaned := ((hquiet happlied).snoc (.clock 150 (show (100 : Int) ≤ 150 by decide))).snoc
    (.cleanup 150 refreshed.entries (le_refl 150) (.refl _))
  have hbefore : (cleanup refreshed 150).get? liveNode.nodeID =
      some ⟨liveNode.coerced, 100, .unhealthy⟩ := by
    decide +kernel
  have hafter : ((cleanup refreshed 150).heartbeat pathID 10).2.get? liveNode.nodeID =
      some ⟨liveNode.coerced, 10, .healthy⟩ := by
    decide +kernel
  exact ⟨_, _, _, _, _, _, hcleaned, (run_apply (cleanup refreshed 150) 150 10 [done₁] _).1, hbefore,
    rfl, rfl, hafter, rfl, rfl⟩

namespace Sample

/-- The registries after heartbeats of 10 and 20, the cleanup at 60 and the
    heartbeat of 70. -/
def refreshed₁ : NodeRegistry := ((registered₁.heartbeat pathID 10).2.heartbeat pathID 20).2

def marked₁ : NodeRegistry := cleanup refreshed₁ 60

/-- Two heartbeats overlap and are applied in order. None waits when the
    node is marked. -/
theorem run_in_order : ∃ h s, Steps (MovesQuietly (fun _ => []) 30 liveNode.nodeID) (.start 0) h s ∧
    s.registry = (marked₁.heartbeat pathID 70).2 ∧
    applied 30 h = [.upsert liveNode.coerced 0,
      .heartbeat pathID 10 (registered₁.heartbeat pathID 10).1.isSome,
      .heartbeat pathID 20 ((registered₁.heartbeat pathID 10).2.heartbeat pathID 20).1.isSome,
      .markUnhealthy 60 30 (refreshed₁.markUnhealthy refreshed₁.entries 60 30).1,
      .heartbeat pathID 70 (marked₁.heartbeat pathID 70).1.isSome] := by
  let done₂ := beating (registered₁.heartbeat pathID 10).1
  let done₃ := beating ((registered₁.heartbeat pathID 10).2.heartbeat pathID 20).1
  obtain ⟨h₁, hregister, happlied₁⟩ := run_registered
  obtain ⟨h₂, hfirst, happlied₂⟩ := run_read registered₁ (show (0 : Int) ≤ 10 by decide) [done₁]
  obtain ⟨h₃, hsecond, happlied₃⟩ :=
    run_read registered₁ (show (10 : Int) ≤ 20 by decide) [done₁, waiting 10]
  have hrefreshed := (((hregister.append hfirst).append hsecond).snoc
    (run_apply registered₁ 20 10 [done₁] [waiting 20])).snoc
    (run_apply (registered₁.heartbeat pathID 10).2 20 20 [done₁, done₂] [])
  have hclean : MovesQuietly (fun _ => []) 30 liveNode.nodeID ⟨refreshed₁, 60, [done₁, done₂, done₃]⟩
      (.cleanup 60 (refreshed₁.markUnhealthy refreshed₁.entries 60 30).1)
      ⟨marked₁, 60, [done₁, done₂, done₃]⟩ := by
    refine ⟨.cleanup 60 refreshed₁.entries (le_refl 60) (.refl _), ?_⟩
    -- all handlers are done
    rintro - u ⟨p, hp, hu⟩
    simp only [List.mem_cons, List.not_mem_nil, or_false] at hp
    rcases hp with rfl | rfl | rfl <;> exact hu.elim
  have hmarked := (hrefreshed.snoc ⟨.clock 60 (show (20 : Int) ≤ 60 by decide), trivial⟩).snoc hclean
  obtain ⟨h₄, hthird, happlied₄⟩ :=
    run_read marked₁ (show (60 : Int) ≤ 70 by decide) [done₁, done₂, done₃]
  refine ⟨_, _, (hmarked.append hthird).snoc (run_apply marked₁ 70 70 [done₁, done₂, done₃] []), rfl, ?_⟩
  unfold applied at happlied₁ happlied₂ happlied₃ happlied₄ ⊢
  simp only [List.filterMap_append, happlied₁, happlied₂, happlied₃, happlied₄]
  rfl

end Sample

open Sample in
/-- After the run with two heartbeats at once, the node was last seen at 70,
    no request applied to it has read a later time, and none applied after
    the cleanup was too old for it. -/
theorem lastSeen_of_run_sample : ∃ h s record,
    Steps (MovesQuietly (fun _ => []) 30 liveNode.nodeID) (.start 0) h s ∧
    s.registry.get? liveNode.nodeID = some record ∧ record.lastSeen = 70 ∧
    record.status = .healthy ∧
    (∀ y ∈ applied 30 h, Refreshes liveNode.nodeID y → ∀ t, y.time = some t → t ≤ 70) ∧
    ∃ before transitions found,
      applied 30 h = before ++ [.markUnhealthy 60 30 transitions, .heartbeat pathID 70 found] ∧
      (∃ marked ∈ transitions, marked.registration.nodeID = liveNode.nodeID) ∧
      Refreshes liveNode.nodeID (.heartbeat pathID 70 found) ∧ ¬(30 : Int) < 60 - 70 := by
  obtain ⟨h, s, hrun, hregistry, happlied⟩ := run_in_order
  have hget : s.registry.get? liveNode.nodeID = some ⟨liveNode.coerced, 70, .healthy⟩ := by
    rw [hregistry]
    decide +kernel
  have horder : InOrder liveNode.nodeID (applied 30 h) := by
    rw [happlied]
    simp [InOrder, Refreshes, NodeRegistry.Entry.time]
  have hmarked : ∃ marked ∈ (refreshed₁.markUnhealthy refreshed₁.entries 60 30).1,
      marked.registration.nodeID = liveNode.nodeID := by
    decide +kernel
  have hrefresh : Refreshes liveNode.nodeID
      (.heartbeat pathID 70 (marked₁.heartbeat pathID 70).1.isSome) :=
    ⟨pathID_eq, by decide +kernel⟩
  obtain ⟨hlatest, hquiet⟩ := lastSeen_of_run (hrun.mono fun _ _ _ h => h.1)
  obtain ⟨hlargest, -⟩ := (hlatest _ hget).2 _ (List.suffix_refl _)
  exact ⟨h, s, _, hrun, hget, rfl, rfl, hlargest horder, [_, _, _], _, _, happlied, hmarked, hrefresh,
    hquiet (by decide) hrun [_, _, _] [] [] 60 30 _ _ 70 happlied hmarked hrefresh rfl⟩

end HopVault.Directory
