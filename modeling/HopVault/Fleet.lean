import HopVault.Deployment
import HopVault.Directory.GeneratedID
import HopVault.Framework.PastTime
import HopVault.Startup

/-! # A fleet of nodes

    Any number of node processes with one directory server. Processes start
    where they find an environment, register until they are accepted, send
    heartbeats, and end; registrations may be lost or late, and the
    directory may restart. At all times the directory lists only processes
    that have been started, each as what it is, so that a client whose
    circuits it draws is served as in a deployment. -/

namespace HopVault

open Framework Framework.Json Framework.Utf8 Framework.Prog Framework.Semantics Directory Startup

variable {ι ν : Type}

/-! ## Processes -/

/-- The public keys that nodes register are PEM text, which is not blank. -/
def Startup.StartLibs.Writes (K : StartLibs) : Prop :=
  ∀ {priv der}, K.marshalPKIX priv = .ok der →
    Valid (K.pemEncode der) ∧ trimSpace (K.pemEncode der) ≠ []

/-- The process has an address, a port and a type that the directory takes. -/
structure Startup.Process.Registrable (p : Process) : Prop where
  nodeType : isValidNodeType p.config.coerced.nodeType = true
  host : trimSpace p.config.coerced.host ≠ []
  port : 0 < p.config.port ∧ p.config.port ≤ 65535

section

variable {X : Externals} {K : StartLibs} {τ : StartPast} {role : Role} {p : Process}

/-- The ID is not changed on its way through JSON. -/
theorem Startup.Started.coerced_nodeID (h : Started X K τ role p) :
    p.config.coerced.nodeID = p.config.nodeID ∧ isUUID p.config.nodeID = true ∧
      trimSpace p.config.nodeID ≠ [] := by
  obtain ⟨b, -, hb⟩ := h.nodeID
  have hgrammar := uuidGrammar_generateNodeID b.2
  have hascii := hgrammar.ascii
  rw [hb]
  refine ⟨?_, (isUUID_of_ascii hascii).mpr hgrammar, ?_⟩
  · show toValid p.config.nodeID = generateNodeID b.1
    rw [hb]
    exact toValid_ascii hascii
  · rw [trimSpace_ascii fun x hx => idByte_generateNodeID x hx]
    exact generateNodeID_ne_nil

/-- The directory takes the registration of a process exactly when it has an
    address, a port and a type. -/
theorem Startup.Started.validate_iff (h : Started X K τ role p) (hK : K.Writes) :
    validateNodeRegistration p.config.coerced = .ok () ↔ p.Registrable := by
  obtain ⟨hid, huuid, hne⟩ := h.coerced_nodeID
  have hkey : trimSpace p.config.coerced.publicKey ≠ [] := by
    obtain ⟨der, hmarshal, hder⟩ := h.publicKey
    show trimSpace (toValid p.config.publicKey) ≠ []
    rw [hder, (hK hmarshal).1]
    exact (hK hmarshal).2
  have hport : p.config.coerced.port = p.config.port := rfl
  unfold validateNodeRegistration
  rw [hid, if_neg hne, huuid, hport]
  constructor
  · intro hvalid
    split_ifs at hvalid with hfalse hblank htype hhost hrange
    refine ⟨by simpa using htype, hhost, ?_⟩
    rw [not_or] at hrange
    exact ⟨Int64.not_le.mp hrange.1, Int64.not_lt.mp hrange.2⟩
  · intro hp
    have htype : trimSpace p.config.coerced.nodeType ≠ [] := by
      intro hblank
      have hvalid := hp.nodeType
      unfold isValidNodeType at hvalid
      simp only [Bool.or_eq_true, beq_iff_eq] at hvalid
      rcases hvalid with (hvalid | hvalid) | hvalid <;>
        · rw [hvalid] at hblank
          revert hblank
          decide +kernel
    have hrange : ¬(p.config.port ≤ 0 ∨ 65535 < p.config.port) := by
      rw [not_or]
      exact ⟨Int64.not_le.mpr hp.port.1, Int64.not_lt.mpr hp.port.2⟩
    simp only [hp.nodeType, htype, hp.host, hrange, hkey, Bool.not_true, Bool.false_eq_true,
      if_false]

end

/-! ## The fleet -/

/-- How far a process has come. -/
inductive Stage where
  | idle
  /-- `Register` has not been accepted. -/
  | registering (p : Process)
  /-- Accepted: the process sends heartbeats. -/
  | running (p : Process)
  | ended (p : Process)

/-- What the process was started as. -/
def Stage.process? : Stage → Option Process
  | idle => none
  | registering p | running p | ended p => some p

/-- The directory's registry and the processes. -/
structure Fleet (ν : Type) where
  registry : NodeRegistry
  stage : ν → Stage
  /-- Registrations that were given up and may still arrive. -/
  late : List NodeRegistration

def Fleet.start : Fleet ν := ⟨.empty, fun _ => .idle, []⟩

/-- The process `n` has been started as `p`. -/
def Fleet.Has (s : Fleet ν) (n : ν) (p : Process) : Prop := (s.stage n).process? = some p

/-- Libraries, roles, and the answers a process may find where it starts. -/
structure Fleet.Setting (ν : Type) where
  X : Externals
  K : StartLibs
  role : ν → Role
  finds : ν → Interaction StartEffects → Prop
  formatTime : Int → Bytes
  heartbeatTimeout : Int

variable (G : Fleet.Setting ν)

/-- The process `n` may start as `p`. -/
def Fleet.Setting.Launches (n : ν) (p : Process) : Prop :=
  ∃ τ, (run G.X G.K (G.role n)).Path τ (some (.ok p)) ∧ ∀ x ∈ τ, G.finds n x

/-- The request of a registration. -/
abbrev registration (cfg : NodeRegistration) : Directory.Call :=
  .update (.register (registerBody cfg))

/-- One step of a process, of the directory, or of somebody who does not
    register. The directory's clock reads a time of the years 1970 to 9999. -/
inductive Fleet.Step [DecidableEq ν] : Fleet ν → Fleet ν → Prop
  | start {s : Fleet ν} {n : ν} {p : Process} : s.stage n = .idle → G.Launches n p →
      Step s { s with stage := Function.update s.stage n (.registering p) }
  | register {s : Fleet ν} {n : ν} {p : Process} {r : NodeRegistry} {t : Int} {answer : Response} :
      s.stage n = .registering p → Dated t →
      Serves G.formatTime G.heartbeatTimeout s.registry
        (.request t (registration p.config) (some answer)) r →
      Step s
        { s with
          registry := r
          stage := if accepted answer then Function.update s.stage n (.running p) else s.stage }
  | registerUnanswered {s : Fleet ν} {n : ν} {p : Process} {r : NodeRegistry} {t : Int}
      {answer : Option Response} : s.stage n = .registering p → Dated t →
      Serves G.formatTime G.heartbeatTimeout s.registry
        (.request t (registration p.config) answer) r →
      Step s { s with registry := r }
  | registerLost {s : Fleet ν} {n : ν} {p : Process} : s.stage n = .registering p →
      Step s { s with late := p.config :: s.late }
  | arrive {s : Fleet ν} {before after : List NodeRegistration} {cfg : NodeRegistration}
      {r : NodeRegistry} {t : Int} {answer : Option Response} :
      s.late = before ++ cfg :: after → Dated t →
      Serves G.formatTime G.heartbeatTimeout s.registry (.request t (registration cfg) answer) r →
      Step s { s with registry := r, late := before ++ after }
  | heartbeat {s : Fleet ν} {n : ν} {p : Process} {r : NodeRegistry} {t : Int}
      {answer : Option Response} : s.stage n = .running p → Dated t →
      Serves G.formatTime G.heartbeatTimeout s.registry
        (.request t (.update (.heartbeat p.config.nodeID)) answer) r →
      -- whatever the answer is, the node only logs it
      Step s { s with registry := r }
  | exit {s : Fleet ν} {n : ν} {p : Process} : s.Has n p →
      Step s { s with stage := Function.update s.stage n (.ended p) }
  | call {s : Fleet ν} {r : NodeRegistry} {t : Int} {c : Directory.Call}
      {answer : Option Response} :
      (∀ body, c ≠ .update (.register body)) → Dated t →
      Serves G.formatTime G.heartbeatTimeout s.registry (.request t c answer) r →
      Step s { s with registry := r }
  | cleanup {s : Fleet ν} {r : NodeRegistry} {t : Int} : Dated t →
      Serves G.formatTime G.heartbeatTimeout s.registry (.cleanup t) r →
      Step s { s with registry := r }
  | restart {s : Fleet ν} : Step s { s with registry := .empty }

/-- A state that a fleet may come to. -/
def Fleet.Reachable [DecidableEq ν] (s : Fleet ν) : Prop :=
  Relation.ReflTransGen (Fleet.Step G) .start s

/-! ## What is listed -/

variable {G} {s s' : Fleet ν} {n : ν} {p : Process}

/-- A record is an old one, up to status and time, or it has just been
    registered. -/
theorem registration_of_serves {formatTime : Int → Bytes} {heartbeatTimeout : Int}
    {r r' : NodeRegistry} {x : Directory.Exchange} (h : Serves formatTime heartbeatTimeout r x r')
    {id : Bytes} {record : Directory.NodeRecord} (hrecord : r'.get? id = some record) :
    (∃ old, r.get? id = some old ∧ record.registration = old.registration) ∨
    ∃ t body answer, x = .request t (.update (.register body)) answer ∧
      Taken body record.registration := by
  rcases serves_cases h with ⟨rfl, -⟩ | ⟨body, node, answer, hx, htaken, rfl⟩ |
    ⟨nodeID, rfl, -⟩ | ⟨nodeID, rfl, -⟩ | ⟨order, horder, -, rfl⟩
  · exact .inl ⟨record, hrecord, rfl⟩
  · rw [NodeRegistry.get?_upsert] at hrecord
    split_ifs at hrecord
    · obtain rfl := Option.some.inj hrecord
      exact .inr ⟨_, body, answer, hx, htaken⟩
    · exact .inl ⟨record, hrecord, rfl⟩
  · exact .inl (inherits_heartbeat nodeID _ id record hrecord)
  · exact .inl (inherits_delete nodeID id record hrecord)
  · exact .inl (inherits_markUnhealthy horder _ _ id record hrecord)

/-- What is known of a fleet at all times. -/
structure Fleet.Sound (G : Fleet.Setting ν) (s : Fleet ν) : Prop where
  wellFormed : WellFormed s.registry
  launched : ∀ n p, s.Has n p → G.Launches n p
  late : ∀ cfg ∈ s.late, ∃ n p, s.Has n p ∧ cfg = p.config
  listed : ∀ id record, s.registry.get? id = some record → ∃ n p, s.Has n p ∧
    record.registration = p.config.coerced ∧ validateNodeRegistration p.config.coerced = .ok ()
  running : ∀ n p, s.stage n = .running p → validateNodeRegistration p.config.coerced = .ok ()

/-- A registration that is served is that of a process. -/
theorem Fleet.Sound.serves (hs : s.Sound G) {x : Directory.Exchange} {r : NodeRegistry}
    (hx : Serves G.formatTime G.heartbeatTimeout s.registry x r)
    (hown : ∀ t body answer, x = .request t (.update (.register body)) answer →
      ∃ n p, s.Has n p ∧ body = registerBody p.config) :
    WellFormed r ∧ ∀ id record, r.get? id = some record → ∃ n p, s.Has n p ∧
      record.registration = p.config.coerced ∧
      validateNodeRegistration p.config.coerced = .ok () := by
  refine ⟨hs.wellFormed.serves hx, fun id record hrecord => ?_⟩
  rcases registration_of_serves hx hrecord with
    ⟨old, hold, hsame⟩ | ⟨t, body, answer, rfl, htaken⟩
  · rw [hsame]
    exact hs.listed id old hold
  · obtain ⟨n, p, hp, rfl⟩ := hown t body answer rfl
    exact ⟨n, p, hp, htaken.own, htaken.own ▸ htaken.valid⟩

theorem Fleet.Sound.start : Fleet.Sound G .start where
  wellFormed := wellFormed_empty
  launched _ _ h := by cases h
  late := by simp [Fleet.start]
  listed := by simp [Fleet.start]
  running _ _ h := by cases h

/-- A process is accepted only if its registration is in order. -/
theorem valid_of_accepted {formatTime : Int → Bytes} {heartbeatTimeout : Int} {r r' : NodeRegistry}
    {t : Int} {cfg : NodeRegistration} {answer : Response}
    (h : Serves formatTime heartbeatTimeout r (.request t (registration cfg) (some answer)) r')
    (haccepted : accepted answer = true) : validateNodeRegistration cfg.coerced = .ok () := by
  cases h with
  | request _ _ hrun =>
    obtain ⟨hanswer, -⟩ := runs_update.mp hrun
    have hanswer : answer = (registerHandler formatTime r t (registerBody cfg)).1 :=
      Option.some.inj hanswer
    rw [hanswer, registerHandler_own] at haccepted
    cases hvalid : validateNodeRegistration cfg.coerced with
    | ok _ => rfl
    | error err =>
      rw [hvalid] at haccepted
      cases haccepted

theorem has_of_registering (h : s.stage n = .registering p) : s.Has n p := by
  rw [Fleet.Has, h]
  rfl

theorem has_of_running (h : s.stage n = .running p) : s.Has n p := by
  rw [Fleet.Has, h]
  rfl

section

variable [DecidableEq ν]

/-- A process that changes its stage remains what it was started as. -/
theorem process_update {m : ν} {q : Process} {stage : Stage} (hq : s.Has m q)
    (hstage : stage.process? = some q) :
    (Function.update s.stage m stage n).process? = some p ↔ s.Has n p := by
  by_cases hn : n = m
  · rw [hn, Function.update_self, hstage, ← hq]
    rfl
  · rw [Function.update_of_ne hn]
    rfl

/-- What a process was started as is not forgotten. -/
theorem Fleet.Step.has (h : Fleet.Step G s s') (hp : s.Has n p) : s'.Has n p := by
  cases h with
  | @start m q hidle _ =>
    have hn : n ≠ m := by
      rintro rfl
      rw [Fleet.Has, hidle] at hp
      cases hp
    show (Function.update s.stage m _ n).process? = some p
    rw [Function.update_of_ne hn]
    exact hp
  | register hreg _ _ =>
    unfold Fleet.Has
    dsimp only
    split_ifs
    · exact (process_update (has_of_registering hreg) rfl).mpr hp
    · exact hp
  | exit hm => exact (process_update hm rfl).mpr hp
  | _ => exact hp

/-- Where a process comes from. -/
theorem Fleet.Step.launched (h : Fleet.Step G s s') (hp : s'.Has n p) :
    s.Has n p ∨ G.Launches n p := by
  cases h with
  | @start m q _ hlaunch =>
    unfold Fleet.Has at hp
    dsimp only at hp
    by_cases hn : n = m
    · rw [hn, Function.update_self, Stage.process?, Option.some.injEq] at hp
      rw [hn, ← hp]
      exact .inr hlaunch
    · rw [Function.update_of_ne hn] at hp
      exact .inl hp
  | register hreg _ _ =>
    unfold Fleet.Has at hp
    dsimp only at hp
    split_ifs at hp
    · exact .inl ((process_update (has_of_registering hreg) rfl).mp hp)
    · exact .inl hp
  | exit hm => exact .inl ((process_update hm rfl).mp hp)
  | _ => exact .inl hp

/-- A process that runs after another has changed its stage ran before, or
    is the one that has. -/
theorem running_update {m : ν} {stage : Stage}
    (h : Function.update s.stage m stage n = .running p) :
    s.stage n = .running p ∨ stage = .running p := by
  by_cases hn : n = m
  · rw [hn, Function.update_self] at h
    exact .inr h
  · rw [Function.update_of_ne hn] at h
    exact .inl h

/-- Who is accepted has registered in order. -/
theorem Fleet.Step.running (h : Fleet.Step G s s') (hp : s'.stage n = .running p) :
    s.stage n = .running p ∨ validateNodeRegistration p.config.coerced = .ok () := by
  cases h with
  | start _ _ => exact (running_update hp).imp_right nofun
  | exit _ => exact (running_update hp).imp_right nofun
  | register _ _ hserves =>
    dsimp only at hp
    split_ifs at hp with haccepted
    · refine (running_update hp).imp_right fun hnew => ?_
      rw [Stage.running.injEq] at hnew
      exact hnew ▸ valid_of_accepted hserves haccepted
    · exact .inl hp
  | _ => exact .inl hp

/-- What a step does to the registry: nothing, a restart, or a request or a
    cleanup in which only processes register. -/
theorem Fleet.Sound.registry (hs : s.Sound G) (h : Fleet.Step G s s') :
    s'.registry = s.registry ∨ s'.registry = .empty ∨
    ∃ x, Serves G.formatTime G.heartbeatTimeout s.registry x s'.registry ∧ Dated x.time ∧
      ∀ t body answer, x = .request t (.update (.register body)) answer →
        ∃ n p, s.Has n p ∧ body = registerBody p.config := by
  -- a registration of its own process
  have hown {n : ν} {p : Process} (hp : s.stage n = .registering p) {t : Int}
      {answer : Option Response} : ∀ t' body answer',
      Directory.Exchange.request t (registration p.config) answer =
        .request t' (.update (.register body)) answer' →
        ∃ n p, s.Has n p ∧ body = registerBody p.config := by
    rintro _ _ _ ⟨⟩
    exact ⟨n, p, has_of_registering hp, rfl⟩
  cases h with
  | start _ _ => exact .inl rfl
  | registerLost _ => exact .inl rfl
  | exit _ => exact .inl rfl
  | register hreg hdated hserves => exact .inr (.inr ⟨_, hserves, hdated, hown hreg⟩)
  | registerUnanswered hreg hdated hserves => exact .inr (.inr ⟨_, hserves, hdated, hown hreg⟩)
  | @arrive before after cfg r t answer hlate hdated hserves =>
    refine .inr (.inr ⟨_, hserves, hdated, ?_⟩)
    rintro _ _ _ ⟨⟩
    obtain ⟨n, p, hp, rfl⟩ := hs.late cfg (by rw [hlate]; simp)
    exact ⟨n, p, hp, rfl⟩
  | heartbeat _ hdated hserves =>
    refine .inr (.inr ⟨_, hserves, hdated, ?_⟩)
    rintro _ _ _ ⟨⟩
  | call hcall hdated hserves =>
    refine .inr (.inr ⟨_, hserves, hdated, ?_⟩)
    rintro _ body _ ⟨⟩
    exact absurd rfl (hcall body)
  | cleanup hdated hserves =>
    refine .inr (.inr ⟨_, hserves, hdated, ?_⟩)
    rintro _ _ _ ⟨⟩
  | restart => exact .inr (.inl rfl)

/-- Only registrations of processes are given up. -/
theorem Fleet.Sound.late_step (hs : s.Sound G) (h : Fleet.Step G s s') :
    ∀ cfg ∈ s'.late, ∃ n p, s.Has n p ∧ cfg = p.config := by
  cases h with
  | @registerLost n p hreg =>
    exact List.forall_mem_cons.mpr ⟨⟨n, p, has_of_registering hreg, rfl⟩, hs.late⟩
  | arrive hlate _ _ =>
    intro cfg hcfg
    refine hs.late cfg ?_
    rw [hlate]
    rcases List.mem_append.mp hcfg with hcfg | hcfg <;> simp [hcfg]
  | _ => exact hs.late

/-- Every step keeps it. -/
theorem Fleet.Sound.step (hs : s.Sound G) (h : Fleet.Step G s s') : s'.Sound G := by
  have hregistry : WellFormed s'.registry ∧ ∀ id record, s'.registry.get? id = some record →
      ∃ n p, s.Has n p ∧ record.registration = p.config.coerced ∧
        validateNodeRegistration p.config.coerced = .ok () := by
    rcases hs.registry h with hsame | hempty | ⟨x, hx, -, hown⟩
    · rw [hsame]
      exact ⟨hs.wellFormed, hs.listed⟩
    · rw [hempty]
      exact ⟨wellFormed_empty, by simp⟩
    · exact hs.serves hx hown
  refine ⟨hregistry.1, ?_, ?_, ?_, ?_⟩
  · intro n p hp
    exact (h.launched hp).elim (hs.launched n p) id
  · intro cfg hcfg
    obtain ⟨n, p, hp, heq⟩ := hs.late_step h cfg hcfg
    exact ⟨n, p, h.has hp, heq⟩
  · intro id record hrecord
    obtain ⟨n, p, hp, hrest⟩ := hregistry.2 id record hrecord
    exact ⟨n, p, h.has hp, hrest⟩
  · intro n p hp
    exact (h.running hp).elim (hs.running n p) id

theorem Fleet.Reachable.sound (h : s.Reachable G) : s.Sound G := by
  induction h with
  | refl => exact .start
  | tail _ hstep ih => exact ih.step hstep

/-- What the directory lists of a process, and under which ID. -/
structure Fleet.Entry (G : Fleet.Setting ν) (s : Fleet ν) (id : Bytes)
    (record : Directory.NodeRecord) (n : ν) (p : Process) (τ : StartPast) : Prop where
  has : s.Has n p
  path : (run G.X G.K (G.role n)).Path τ (some (.ok p))
  finds : ∀ x ∈ τ, G.finds n x
  started : Started G.X G.K τ (G.role n) p
  registrable : p.Registrable
  registration : record.registration = p.config.coerced
  id : id = p.config.nodeID

/-- A record is that of a process that has been started. -/
theorem Fleet.Reachable.entry (hK : G.K.Writes) (h : s.Reachable G) {id : Bytes}
    {record : Directory.NodeRecord} (hrecord : s.registry.get? id = some record) :
    ∃ n p τ, s.Entry G id record n p τ := by
  have hs := h.sound
  obtain ⟨n, p, hp, hregistration, hvalid⟩ := hs.listed id record hrecord
  obtain ⟨τ, hpath, hfinds⟩ := hs.launched n p hp
  have hstarted := started_of_run hpath
  refine ⟨n, p, τ, hp, hpath, hfinds, hstarted, (hstarted.validate_iff hK).mp hvalid,
    hregistration, ?_⟩
  rw [← hs.wellFormed.keyed id record hrecord, hregistration]
  exact hstarted.coerced_nodeID.1

/-- **Only processes are listed**: in every state a fleet may come to, a
    record of the directory is that of a process that has been started, with
    what the process drew and found at its start, and in order; and a process
    runs only if it could be registered. -/
theorem fleet_listed (hK : G.K.Writes) (h : s.Reachable G) :
    (∀ id record, s.registry.get? id = some record → ∃ n p τ, s.Entry G id record n p τ) ∧
    (∀ n p, s.stage n = .running p → p.Registrable) := by
  constructor
  · intro id record hrecord
    exact h.entry hK hrecord
  · intro n p hp
    have hvalid := h.sound.running n p hp
    obtain ⟨τ, hpath, -⟩ := h.sound.launched n p (has_of_running hp)
    exact ((started_of_run hpath).validate_iff hK).mp hvalid

end

/-! ## The fleet as a network -/

/-- The processes of the fleet are nodes of the network. The variable
    `NODE_TYPE` is set for the program that is started. Where a process has
    registered there is its node, or, since it may have ended, nothing; and
    its public key reads as the one of its private key. -/
structure Fleet.Sited (G : Fleet.Setting ν) {μ : Type} (N : Net μ) : Prop where
  keys : ∀ {priv der}, G.K.marshalPKIX priv = .ok der →
    ∃ pub, parsePublicKey N.X (G.K.pemEncode der) = .ok pub ∧ N.X.KeyPair pub priv
  named : ∀ {n v}, G.finds n (.op (.lookupEnv (lit "NODE_TYPE")) v) →
    v = some (lit (G.role n).nodeType)
  sites : ∀ {n p}, G.Launches n p → p.Registrable → N.Down p.config.coerced.listed ∨
    ∃ m, N.role m = p.role ∧ N.priv m = p.privateKey ∧
      N.route (p.config.coerced.listed.nodeURL ++ lit "/setup") = some (m, .setup) ∧
      N.route (p.config.coerced.listed.nodeURL ++ lit "/onion") = some (m, .onion)

section

variable {μ : Type} {N : Net μ}

theorem Role.valid_nodeType (role : Role) : toValid (lit role.nodeType) = lit role.nodeType := by
  cases role <;> decide +kernel

/-- The address of a registration is text. -/
theorem valid_addr (cfg : NodeRegistration) : Valid cfg.coerced.listed.addr :=
  (Valid.append (toValid_toValid cfg.host) (by unfold Valid; decide +kernel)).append (valid_itoa _)

/-- A process is a node of the network, or down. -/
theorem Fleet.Sited.runs (hsited : Fleet.Sited G N) (hK : G.K.Writes) (hlaunch : G.Launches n p)
    (hp : p.Registrable) : N.Runs p.config.coerced := by
  have ⟨τ, hpath, hfinds⟩ := hlaunch
  have hstarted := started_of_run hpath
  obtain ⟨v, hv, htype⟩ := hstarted.nodeType
  obtain rfl := hsited.named (hfinds _ hv)
  obtain ⟨der, hmarshal, hder⟩ := hstarted.publicKey
  rcases hsited.sites hlaunch hp with hdown | ⟨m, hrole, hpriv, hsetup, honion⟩
  · exact .inr hdown
  · refine .inl ⟨m, ⟨hsetup, honion, ?_, valid_addr p.config⟩, ?_⟩
    · -- the key is text, so that it arrives as it was written
      have hkey : p.config.coerced.listed.publicKey = G.K.pemEncode der := by
        show toValid p.config.publicKey = _
        rw [hder]
        exact (hK hmarshal).1
      rw [hkey, hpriv]
      exact hsited.keys hmarshal
    · show toValid p.config.nodeType = _
      rw [htype, hrole, hstarted.role]
      exact Role.valid_nodeType (G.role n)

/-- A registration that is not in order is refused. -/
theorem registry_of_invalid {formatTime : Int → Bytes} {heartbeatTimeout : Int}
    {r r' : NodeRegistry} {t : Int} {cfg : NodeRegistration} {answer : Option Response}
    {err : Bytes}
    (h : Serves formatTime heartbeatTimeout r (.request t (registration cfg) answer) r')
    (hvalid : validateNodeRegistration cfg.coerced = .error err) : r' = r := by
  cases h with
  | request _ _ hrun =>
    obtain ⟨-, rfl⟩ := runs_update.mp hrun
    show (registerHandler formatTime r t (registerBody cfg)).2 = r
    rw [registerHandler_own, hvalid]

variable [DecidableEq ν]

/-- One step of the fleet is one of the network's directory, or none. -/
theorem Fleet.Sited.step (hsited : Fleet.Sited G N) (hK : G.K.Writes) (hs : s.Sound G)
    (hr : N.Reached G.formatTime G.heartbeatTimeout s.registry) (h : Fleet.Step G s s') :
    N.Reached G.formatTime G.heartbeatTimeout s'.registry := by
  rcases hs.registry h with hsame | hempty | ⟨x, hx, hdated, hown⟩
  · rw [hsame]
    exact hr
  · rw [hempty]
    exact Net.reached_empty
  · by_cases hforeign : ∃ t body answer, x = .request t (.update (.register body)) answer
    · obtain ⟨t, body, answer, rfl⟩ := hforeign
      obtain ⟨n, p, hp, rfl⟩ := hown t body answer rfl
      have hlaunch := hs.launched n p hp
      cases hvalid : validateNodeRegistration p.config.coerced with
      | error err =>
        rw [registry_of_invalid hx hvalid]
        exact hr
      | ok _ =>
        have ⟨τ, hpath, _⟩ := hlaunch
        have hregistrable := ((started_of_run hpath).validate_iff hK).mp hvalid
        refine hr.step ⟨hdated, ?_⟩ hx
        rintro _ _ _ ⟨⟩
        exact ⟨p.config, rfl, hsited.runs hK hlaunch hregistrable⟩
    · refine hr.step ⟨hdated, fun t body answer hregister => ?_⟩ hx
      exact absurd ⟨t, body, answer, hregister⟩ hforeign

/-- **Simulation**: the directory of a fleet is one with which only nodes of
    the network have registered. -/
theorem Fleet.Reachable.reached (hsited : Fleet.Sited G N) (hK : G.K.Writes) (h : s.Reachable G) :
    N.Reached G.formatTime G.heartbeatTimeout s.registry := by
  induction h with
  | refl => exact Net.reached_empty
  | tail hreach hstep ih => exact hsited.step hK (Fleet.Reachable.sound hreach) ih hstep

/-! ## A client of the fleet -/

/-- A handler of the directory performs an operation on the registry; the
    processes stay as they are. -/
def Fleet.Performs : Behavior Operations (Fleet ν) := fun s e a s' =>
  ∃ r, PerformsSometime s.registry e a r ∧ s' = { s with registry := r }

/-- A request for a circuit at the directory server, while the fleet goes
    on: the states the fleet comes to and the response. -/
structure Fleet.Asked (G : Fleet.Setting ν) (hops : Int) where
  state : Fleet ν
  reachable : Fleet.Reachable G state
  seen : List (Fleet ν)
  response : Response
  run : Interleaved Fleet.Performs (Fleet.Step G) state
    (Service.circuitHandler G.formatTime (lit "hops=" ++ Decimal.itoa hops)) seen (some response)

/-- The response is from the registry of the fleet at one instant of the
    request. -/
theorem Fleet.Asked.answersFrom {hops : Int} (hhops : hops = 1 ∨ hops = 3)
    (asked : Fleet.Asked G hops) : ∃ s ∈ asked.seen, Fleet.Reachable G s ∧
      AnswersFrom G.formatTime s.registry hops asked.response := by
  have hB : OnRegistry Fleet.registry (Fleet.Performs (ν := ν)) := by
    rintro s e a s' ⟨r, hperforms, rfl⟩
    exact hperforms
  obtain ⟨s, hseen, hs, answer, hanswer, hcircuit⟩ := circuitHandler_answer hB
    (parseHops_client hhops) asked.reachable (fun _ _ hs hstep => hs.tail hstep)
    (fun _ hs => (Fleet.Reachable.sound hs).wellFormed) asked.run
  obtain rfl := Option.some.inj hanswer
  exact ⟨s, hseen, hs, hcircuit.answersFrom (Fleet.Reachable.sound hs).wellFormed⟩

variable [DecidableEq ι] [DecidableEq μ] {i : ι} {c : HopVault.Call}
  {D : DestRequest → DestResponse}

/-- **A call over a fleet**: every circuit the client fetches is of processes
    that have been started and were healthy in the registry at one instant
    of the request that was answered with it; it gets none only when there
    were too few at that instant; and the call is served by the first
    circuit none of whose processes is down. -/
theorem fleet_serves (hX : N.X.LawfulAEAD) (htimes : TimesRead N.X G.formatTime) (hK : G.K.Writes)
    (hsited : Fleet.Sited G N) (hc : c.Ready N) {w : World ι μ}
    (hD : ∀ n m req, (w.oracle (i, .node n) m).dest req = .answered (D req))
    (asked : Nat → Fleet.Asked G c.hops)
    (hdir : ∀ k, (w.oracle (i, .client) k).get (circuitURL c.directoryURL c.hops) =
      .ok (asked k).response) :
    ∃ τ r w',
      N.reliable.Traces (i, .client) (executeRequestWithRebuildTracking N.X c) w τ r w' ∧
      Masks N c D i 0 c.attempts.toNat w w' (fetchedCircuits N.X c τ) r ∧
      ∀ x ∈ fetchedCircuits N.X c τ, (∃ k, x = readingAt N.X c w i k) ∧
        ∀ k, x = readingAt N.X c w i k → ∃ s ∈ (asked k).seen,
          Fleet.Reachable G s ∧ DrawnFrom s.registry c.hops x ∧
          ∀ circuit, x = .ok circuit → ∀ rec ∈ circuitHops circuit c.hops, ∃ record n p τ',
            s.Entry G record.registration.nodeID record n p τ' ∧ rec = record.reported := by
  obtain ⟨τ, r, w', htrace, hmasks, hdrawn⟩ := execute_of_answers (D := D) (i := i) (w := w)
    (P := fun k r => ∃ s ∈ (asked k).seen, Fleet.Reachable G s ∧ s.registry = r) hX htimes hc hD
    (fun _ _ ⟨_, _, hreach, hr⟩ => hr ▸ Fleet.Reachable.reached hsited hK hreach) (fun k => by
      obtain ⟨s, hseen, hs, hanswer⟩ := (asked k).answersFrom hc.hops
      exact ⟨s.registry, _, ⟨s, hseen, hs, rfl⟩, hanswer, hdir k⟩)
  refine ⟨τ, r, w', htrace, hmasks, fun x hx => ⟨(hdrawn x hx).1, fun k hk => ?_⟩⟩
  obtain ⟨_, ⟨s, hseen, hs, rfl⟩, hdraw⟩ := (hdrawn x hx).2 k hk
  refine ⟨s, hseen, hs, hdraw, fun circuit hx rec hrec => ?_⟩
  subst hx
  cases hdraw with
  | circuit _ hlisted =>
    obtain ⟨record, hrecord, -, hrec⟩ := hlisted rec hrec
    obtain ⟨n, p, τ', hentry⟩ := Fleet.Reachable.entry hK hs hrecord
    exact ⟨record, n, p, τ', hentry, hrec⟩

end

/-! ## A start with fixed answers -/

section

variable {α : Type} {ans : (e : StartOp) → e.Ans}

/-- The answers are the given ones. -/
def FoundBy (ans : (e : StartOp) → e.Ans) (x : Interaction StartEffects) : Prop :=
  ∃ e, x = .op e (ans e)

/-- A process that finds the given answers has no choice. -/
theorem result_of_found {p : Start α} {τ : StartPast} {a : α} (h : p.Path τ a)
    (hτ : ∀ x ∈ τ, FoundBy ans x) : (p.answered (S := StartEffects) ans Empty.elim).2 = a := by
  induction h with
  | ret => rfl
  | op _ ih =>
    obtain ⟨⟨e, he⟩, htail⟩ := List.forall_mem_cons.mp hτ
    cases he
    exact ih htail
  | @rpc q _ _ _ _ _ _ => exact q.elim

theorem found_answered (p : Start α) :
    ∀ x ∈ (p.answered (S := StartEffects) ans Empty.elim).1, FoundBy ans x := by
  induction p with
  | ret a => simp [Prog.answered]
  | op e k ih => exact List.forall_mem_cons.mpr ⟨⟨e, rfl⟩, ih _⟩
  | rpc q _ _ => exact q.elim

end

namespace Sample

/-- Four programs: the three nodes, and the relay that will be gone. -/
inductive Task where
  | up (n : Node)
  | gone
  deriving DecidableEq

namespace Task

def role : Task → Role
  | up n => n
  | gone => .relay

/-- What the program registers with, its key pair, which is also its
    address, and what it draws for its ID. -/
def config : Task → NodeRegistration
  | up n => Sample.config n
  | gone => goneConfig

def key : Task → Bytes
  | up n => host n
  | gone => lit "x"

def seed : Task → UInt8
  | up .guard => 0
  | up .relay => 1
  | gone => 2
  | up .exit => 3

/-- What it finds. -/
def found (task : Task) : (e : StartOp) → e.Ans
  | .lookupEnv key =>
    if key = lit "PORT" then some (lit "1")
    else if key = lit "NODE_TYPE" then some (lit task.role.nodeType)
    else if key = lit "DIRECTORY_SERVER_URL" then some (lit "http://d")
    else none
  | .log _ => ()
  | .rand n => ⟨List.replicate n task.seed, List.length_replicate⟩
  | .generateKey => .ok task.key
  | .get _ => .ok (task.key, none)
  | .hostname => .ok (lit "node")

def process (task : Task) : Process :=
  ⟨task.config, task.key, lit "http://d", lit ":1", task.role⟩

end Task

/-- The public key is the private one, and PEM the key itself, as the
    libraries read them. -/
def startLibs : StartLibs where
  marshalPKIX priv :=
    if priv ∈ [lit "g", lit "r", lit "x", lit "e"] then .ok priv
    else .error (lit "x509: unsupported public key type")
  pemEncode der := der
  parseDuration _ := .error (lit "time: invalid duration")
  formatDuration := Decimal.itoa
  quote s := s

theorem startLibs_writes : startLibs.Writes := by
  intro priv der h
  unfold startLibs at h
  dsimp only at h
  split_ifs at h with hpriv
  obtain rfl := Except.ok.inj h
  have hkeys : ∀ key ∈ [lit "g", lit "r", lit "x", lit "e"],
      toValid key = key ∧ trimSpace key ≠ [] := by
    decide +kernel
  exact hkeys priv hpriv

/-- The four tasks and no other. -/
def setting : Fleet.Setting Task where
  X := datedExternals
  K := startLibs
  role := Task.role
  finds task x := FoundBy task.found x
  formatTime := Decimal.itoa
  heartbeatTimeout := 30

theorem answered_task (task : Task) :
    ((run datedExternals startLibs task.role).answered (S := StartEffects) task.found
      Empty.elim).2 = some (.ok task.process) := by
  rcases task with (_ | _ | _) | _ <;> rfl

theorem launches (task : Task) : setting.Launches task task.process :=
  ⟨_, answered_task task ▸ path_answered (S := StartEffects) task.found Empty.elim _,
    found_answered _⟩

theorem process_eq {task : Task} {p : Process} (h : setting.Launches task p) : p = task.process := by
  obtain ⟨τ, hpath, hfinds⟩ := h
  have hresult := result_of_found hpath hfinds
  exact Except.ok.inj (Option.some.inj (hresult.symm.trans (answered_task task)))

/-- A task starts and is accepted at once. -/
def join (s : Fleet Task) (task : Task) : Fleet Task where
  registry := Directory.Sample.register s.registry task.config
  stage := Function.update s.stage task (.running task.process)
  late := s.late

theorem join_reachable {s : Fleet Task} (hs : s.Reachable setting) {task : Task}
    (hidle : s.stage task = .idle) : (join s task).Reachable setting := by
  have hstart : Fleet.Step setting s _ := .start hidle (launches task)
  have haccepted : accepted (Request.answer setting.formatTime s.registry 0
      (.register (registerBody task.process.config))).1 = true := by
    have hvalid : validateNodeRegistration task.config.coerced = .ok () := by
      rcases task with (_ | _ | _) | _ <;> decide +kernel
    show accepted (registerHandler Decimal.itoa s.registry 0 (registerBody task.config)).1 = true
    rw [registerHandler_own, hvalid]
    rfl
  have hregister := Fleet.Step.register (G := setting) (n := task) (p := task.process)
    (s := { s with stage := Function.update s.stage task (.registering task.process) })
    (Function.update_self _ _ _) dated_zero (serves_update s.registry 0 (.register _))
  have hregistry : (Request.answer setting.formatTime s.registry 0
      (.register (registerBody task.process.config))).2 =
      Directory.Sample.register s.registry task.config :=
    Directory.Sample.register_eq _ _ _
  dsimp only at hregister
  rw [if_pos haccepted, hregistry, Function.update_idem] at hregister
  exact (hs.tail hstart).tail hregister

/-- All have joined, and one has ended. -/
def joined : Fleet Task := join (join (join (join .start (.up .guard)) (.up .relay)) .gone) (.up .exit)

def quit : Fleet Task :=
  { joined with stage := Function.update joined.stage .gone (.ended Task.gone.process) }

theorem quit_reachable : quit.Reachable setting := by
  have hjoined : joined.Reachable setting :=
    join_reachable (join_reachable (join_reachable (join_reachable .refl rfl) rfl) rfl) rfl
  exact hjoined.tail (.exit rfl)

theorem get?_staffed (task : Task) :
    staffed.get? task.config.nodeID = some (Directory.Sample.newRecord task.config) := by
  rcases task with (_ | _ | _) | _ <;> decide +kernel

end Sample

/-- Each of four tasks is listed as the process it was started as, also the
    one that has ended, and those that still run could be registered. -/
theorem fleet_listed_sample :
    (∀ n p, Sample.quit.stage n = .running p → p.Registrable) ∧
    Sample.quit.stage .gone = .ended Sample.Task.gone.process ∧
    ∀ task : Sample.Task, Sample.quit.registry.get? task.config.nodeID =
        some (Directory.Sample.newRecord task.config) ∧
      ∃ n p τ, Sample.quit.Entry Sample.setting task.config.nodeID
        (Directory.Sample.newRecord task.config) n p τ := by
  obtain ⟨hlisted, hrunning⟩ := fleet_listed Sample.startLibs_writes Sample.quit_reachable
  exact ⟨hrunning, rfl, fun task =>
    ⟨Sample.get?_staffed task, hlisted _ _ (Sample.get?_staffed task)⟩⟩

namespace Sample

/-- The nodes of the network are the tasks that are up. -/
theorem sited : Fleet.Sited setting datedNet where
  keys := by
    intro priv der h
    unfold setting startLibs at h
    dsimp only at h
    split_ifs at h
    obtain rfl := Except.ok.inj h
    exact ⟨priv, rfl, keyPair priv⟩
  named := by
    rintro task v ⟨e, he⟩
    cases he
    rfl
  sites := by
    intro task p hlaunch _
    obtain rfl := process_eq hlaunch
    rcases task with n | _
    · refine .inr ⟨n, rfl, rfl, ?_, ?_⟩
      · cases n <;> decide +kernel
      · cases n <;> decide +kernel
    · have hcoerced : goneConfig.coerced = goneConfig := by decide +kernel
      left
      show datedNet.Down goneConfig.coerced.listed
      rw [hcoerced]
      exact gone_down

/-- The fleet when the task that has ended is no longer listed. -/
def cleared : Fleet Task := { quit with registry := remaining }

theorem step_cleared : Fleet.Step setting quit cleared :=
  .call (c := .update (.deregister goneConfig.nodeID)) (by rintro body ⟨⟩) dated_zero
    (serves_update staffed 0 (.deregister goneConfig.nodeID))

theorem reads_fleet : Directory.Sample.Reads Fleet.registry (Fleet.Performs (ν := Task)) :=
  fun s _ _ h => ⟨s.registry, h, rfl⟩

/-- The requests of a call. -/
def askedFleet (k : Nat) : Fleet.Asked setting 3 :=
  if k < 2 then ⟨quit, quit_reachable, _, _, first_run reads_fleet rfl step_cleared⟩
  else ⟨cleared, quit_reachable.tail step_cleared, _, _, second_run reads_fleet rfl⟩

/-- The answers to these requests. -/
def servedByFleet : World Unit Node :=
  { start with oracle := fun _ m => { choice m with get := fun _ => .ok (askedFleet m).response } }

end Sample

/-- A call over three hops, while one of two relays that has ended is
    deregistered. -/
theorem fleet_serves_sample : ∃ τ r w',
    Sample.datedNet.reliable.Traces ((), .client)
      (executeRequestWithRebuildTracking Sample.datedExternals Sample.patientCall)
      Sample.servedByFleet τ r w' ∧
    Masks Sample.datedNet Sample.patientCall (fun _ => Sample.response) () 0 2 Sample.servedByFleet w'
      (fetchedCircuits Sample.datedExternals Sample.patientCall τ) r ∧
    ∀ x ∈ fetchedCircuits Sample.datedExternals Sample.patientCall τ, ∃ k,
      x = readingAt Sample.datedExternals Sample.patientCall Sample.servedByFleet () k ∧
      ∃ s ∈ (Sample.askedFleet k).seen, DrawnFrom s.registry 3 x ∧
        ∀ circuit, x = .ok circuit → ∀ rec ∈ circuitHops circuit 3, ∃ record n p τ',
          s.Entry Sample.setting record.registration.nodeID record n p τ' ∧
            rec = record.reported := by
  obtain ⟨τ, r, w', htrace, hmasks, hdrawn⟩ := fleet_serves (G := Sample.setting)
    (N := Sample.datedNet) (i := ()) (w := Sample.servedByFleet) (D := fun _ => Sample.response)
    (fun {_ _} => Sample.lawfulAEAD) Sample.dated_timesRead Sample.startLibs_writes Sample.sited
    Sample.patientCall_dated (fun _ _ _ => rfl) Sample.askedFleet fun _ => rfl
  refine ⟨τ, r, w', htrace, hmasks, fun x hx => ?_⟩
  obtain ⟨⟨k, hk⟩, hregistry⟩ := hdrawn x hx
  obtain ⟨s, hseen, -, hdraw, hentries⟩ := hregistry k hk
  exact ⟨k, hk, s, hseen, hdraw, hentries⟩

end HopVault
