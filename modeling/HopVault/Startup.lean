import HopVault.Directory.Node
import HopVault.Framework.Path
import HopVault.Network

/-! # Starting a node

    `run` of `guard-node`, `relay-node` and `exit-node`, with `config.Load`
    and the identity of `shared/node/registration.go`, up to the
    configuration with which the node registers. What the address of the
    node is depends on who answers: a public service, the metadata of the
    task, or the host name. -/

namespace HopVault.Startup

open Framework Framework.Json Framework.Utf8 Framework.Decimal Framework.Prog Directory

/-! ## What a process asks for -/

/-- The operations of a process that starts. -/
inductive StartOp where
  /-- `os.LookupEnv`. -/
  | lookupEnv (key : Bytes)
  /-- `log.Printf`, or the line of `log.Fatalf`. -/
  | log (line : Bytes)
  /-- `rand.Read` of a buffer; it does not fail. -/
  | rand (n : Nat)
  /-- `rsa.GenerateKey`. -/
  | generateKey
  /-- `client.Do` of a GET, the body read: the octets that arrive, and the
      error that breaks it off. -/
  | get (url : Bytes)
  /-- `os.Hostname`. -/
  | hostname

/-- The answers to an operation. -/
abbrev StartOp.Ans : StartOp → Type
  | lookupEnv _ => Option Bytes
  | log _ => Unit
  | rand n => {b : Bytes // b.length = n}
  | generateKey => Result PrivateKey
  | get _ => Result (Bytes × Option Bytes)
  | hostname => Result Bytes

abbrev StartEffects : Sig where
  Op := StartOp
  Ans := StartOp.Ans
  Req := Empty
  Resp := Empty

/-- A program of a process that starts. -/
abbrev Start (α : Type) : Type := Prog StartEffects α

/-- What a process has asked so far, with the answers. -/
abbrev StartPast : Type := List (Interaction StartEffects)

/-- Perform an operation. -/
def ask (e : StartOp) : Start e.Ans := Prog.perform (S := StartEffects) e

@[simp] theorem ask_eq (e : StartOp) : ask e = .op e .ret := rfl

/-- What a process that starts uses of Go's libraries. -/
structure StartLibs where
  /-- `x509.MarshalPKIXPublicKey` of the public key of a private key. -/
  marshalPKIX : PrivateKey → Result Bytes
  /-- `pem.EncodeToMemory` of a block of type `PUBLIC KEY`. -/
  pemEncode : Bytes → Bytes
  /-- `time.ParseDuration`, in nanoseconds. -/
  parseDuration : Bytes → Result Int
  /-- `Duration.String`. -/
  formatDuration : Int → Bytes
  /-- `strconv.Quote`. -/
  quote : Bytes → Bytes

/-! ## Configuration -/

/-- `config.NodeConfig`, with durations in nanoseconds. -/
structure NodeConfig where
  port : Bytes
  nodeType : Bytes
  directoryServerURL : Bytes
  heartbeatCleanupInterval : Int
  heartbeatTimeout : Int

variable (X : Externals) (K : StartLibs)

def getEnv (key fallback : String) : Start Bytes := do
  match ← ask (.lookupEnv (lit key)) with
  | some val => return val
  | none => return lit fallback

/-- Without the variable the process ends. -/
def mustGetEnv (key : String) : Start (Option Bytes) := do
  let val := (← ask (.lookupEnv (lit key))).getD []
  if val = [] then
    ask (.log (lit "[config] required environment variable " ++ lit key ++ lit " is not set"))
    return none
  else return some val

def getDurationEnv (key : String) (fallback : Int) : Start Int := do
  let val := (← ask (.lookupEnv (lit key))).getD []
  if val = [] then return fallback
  else
    match K.parseDuration val with
    | .error _ =>
      ask (.log (lit "[config] invalid " ++ lit key ++ lit "=" ++ K.quote val ++
        lit "; using default " ++ K.formatDuration fallback))
      return fallback
    | .ok parsed => return parsed

/-- `config.Load`. -/
def load : Start (Option NodeConfig) := do
  let port ← getEnv "PORT" "8080"
  let nodeType ← getEnv "NODE_TYPE" "unknown"
  match ← mustGetEnv "DIRECTORY_SERVER_URL" with
  | none => return none
  | some url =>
    let interval ← getDurationEnv K "HEARTBEAT_CLEANUP_INTERVAL" (15 * 10 ^ 9)
    let timeout ← getDurationEnv K "HEARTBEAT_TIMEOUT" (30 * 10 ^ 9)
    ask (.log (lit "[config] PORT=" ++ port))
    ask (.log (lit "[config] NODE_TYPE=" ++ nodeType))
    ask (.log (lit "[config] DIRECTORY_SERVER_URL=" ++ url))
    ask (.log (lit "[config] HEARTBEAT_CLEANUP_INTERVAL=" ++ K.formatDuration interval))
    ask (.log (lit "[config] HEARTBEAT_TIMEOUT=" ++ K.formatDuration timeout))
    return some ⟨port, nodeType, url, interval, timeout⟩

/-- The number `strconv.Atoi` returns, whether or not with an error: zero
    for text that is none, and the nearest `int` for one out of range. -/
def atoiValue (s : Bytes) : Int64 :=
  match parseInt s with
  | none => 0
  | some i => Int64.ofInt (max (-2 ^ 63) (min i (2 ^ 63 - 1)))

/-! ## The address -/

def checkIPURL : Bytes := lit "http://checkip.amazonaws.com"

/-- What `publicIPFromCheckIP` makes of the answer; the status is not
    looked at. -/
def readCheckIP : Result (Bytes × Option Bytes) → Result Bytes
  | .error err => .error err
  | .ok (_, some err) => .error err
  | .ok (body, none) =>
    let ip := trimSpace body
    if ip = [] then .error (lit "empty response from checkip") else .ok ip

def publicIPFromCheckIP : Start (Result Bytes) := do
  let answer ← ask (.get checkIPURL)
  return readCheckIP answer

structure EcsNetwork where
  ipv4Addresses : List Bytes

def EcsNetwork.fields : List (RecordField EcsNetwork) :=
  [.of "IPv4Addresses" (asList asString []) (·.ipv4Addresses)
    (fun v r => { r with ipv4Addresses := v })]

structure EcsContainer where
  networks : List EcsNetwork

def EcsContainer.fields : List (RecordField EcsContainer) :=
  [.of "Networks" (asList (fill false EcsNetwork.fields) ⟨[]⟩) (·.networks)
    (fun v r => { r with networks := v })]

/-- `ecsTaskMeta`. -/
structure EcsTaskMeta where
  containers : List EcsContainer

def EcsTaskMeta.fields : List (RecordField EcsTaskMeta) :=
  [.of "Containers" (asList (fill false EcsContainer.fields) ⟨[]⟩) (·.containers)
    (fun v r => { r with containers := v })]

/-- What `ipFromECSMetadata` makes of the answer. That the body breaks off
    is not noticed. -/
def readMetadata : Result (Bytes × Option Bytes) → Result Bytes
  | .error err => .error err
  | .ok (body, _) =>
    match unmarshal EcsTaskMeta.fields ⟨[]⟩ body with
    | none => .error (wrap "parse ECS metadata" (X.jsonError body))
    | some info =>
      -- the first network that has an address
      match info.containers.findSome? fun c =>
        c.networks.findSome? fun n => n.ipv4Addresses.head? with
      | none => .error (lit "no IPv4 address in ECS metadata")
      | some ip => .ok ip

def ipFromECSMetadata (url : Bytes) : Start (Result Bytes) :=
  match X.newRequest (lit "GET") url with
  | .error err => return .error err
  | .ok () => do
    let answer ← ask (.get url)
    return readMetadata X answer

/-- The loop over the variables that hold an endpoint of the metadata. -/
def ipFromMetadataVars : List String → Start (Option Bytes)
  | [] => return none
  | envVar :: rest => do
    let uri := (← ask (.lookupEnv (lit envVar))).getD []
    if uri = [] then ipFromMetadataVars rest
    else
      let failed (err : Bytes) : Start (Option Bytes) := do
        ask (.log (lit "[node] ECS metadata via " ++ lit envVar ++ lit " failed: " ++ err))
        ipFromMetadataVars rest
      match ← ipFromECSMetadata X (uri ++ lit "/task") with
      | .error err => failed err
      | .ok ip => if ip = [] then failed (lit "<nil>") else return some ip

def resolveOwnAddress : Start (Result Bytes) := do
  match ← publicIPFromCheckIP with
  | .ok ip => return .ok ip
  | .error _ =>
    match ← ipFromMetadataVars X
      ["ECS_CONTAINER_METADATA_URI_V4", "ECS_CONTAINER_METADATA_URI"] with
    | some ip => return .ok ip
    | none =>
      match ← ask .hostname with
      | .error err => return .error (wrap "hostname" err)
      | .ok hostname => return .ok hostname

/-! ## The identity -/

/-- The private key and the public key in PEM. -/
def generateKeyPair : Start (Result (PrivateKey × Bytes)) := do
  match ← ask .generateKey with
  | .error err => return .error (wrap "generate RSA key" err)
  | .ok priv =>
    match K.marshalPKIX priv with
    | .error err => return .error (wrap "marshal public key" err)
    | .ok pubBytes => return .ok (priv, K.pemEncode pubBytes)

structure Identity where
  nodeID : Bytes
  privateKey : PrivateKey
  publicKeyPEM : Bytes
  host : Bytes

def newIdentity : Start (Result Identity) := do
  let b ← ask (.rand 16)
  let nodeID := generateNodeID b.1
  match ← generateKeyPair K with
  | .error err => return .error (wrap "generate key pair" err)
  | .ok (priv, pubPEM) =>
    match ← resolveOwnAddress X with
    | .error err =>
      ask (.log (lit "[node] resolve address: " ++ err ++ lit " — continuing with empty host"))
      return .ok ⟨nodeID, priv, pubPEM, []⟩
    | .ok host => return .ok ⟨nodeID, priv, pubPEM, host⟩

/-! ## The process -/

/-- A node that has been started. -/
structure Process where
  /-- What it registers with. -/
  config : NodeRegistration
  privateKey : PrivateKey
  directoryURL : Bytes
  /-- Where its server listens. -/
  addr : Bytes
  /-- Whose handlers the server has. -/
  role : Role

/-- `run`; `none` is a process that ends for want of configuration. -/
def run (role : Role) : Start (Option (Result Process)) := do
  match ← load K with
  | none => return none
  | some cfg =>
    match ← newIdentity X K with
    | .error err => return some (.error err)
    | .ok identity =>
      -- a port that is not understood is registered all the same
      let port := atoiValue cfg.port
      return some (.ok ⟨⟨identity.nodeID, cfg.nodeType, identity.host, port, identity.publicKeyPEM⟩,
        identity.privateKey, cfg.directoryServerURL, lit ":" ++ cfg.port, role⟩)

/-- `run` of `guard-node/main.go`. -/
def GuardNode.run : Start (Option (Result Process)) := Startup.run X K .guard

/-- `run` of `relay-node/main.go`. -/
def RelayNode.run : Start (Option (Result Process)) := Startup.run X K .relay

/-- `run` of `exit-node/main.go`. -/
def ExitNode.run : Start (Option (Result Process)) := Startup.run X K .exit

/-! ## What is known of a process -/

/-- The address that an answer gives, if it is asked for one. -/
def addressOf : Interaction StartEffects → Option Bytes
  | .op (.get url) answer =>
    match if url = checkIPURL then readCheckIP answer else readMetadata X answer with
    | .error _ => none
    | .ok ip => if ip = [] then none else some ip
  | .op .hostname answer => answer.toOption
  | _ => none

/-- The addresses a process has been given. -/
def addresses (τ : StartPast) : List Bytes := τ.filterMap (addressOf X)

/-- What a process has been started as, by what it was answered. Its host
    is the first address it was given, and blank if there was none. -/
structure Started (τ : StartPast) (role : Role) (p : Process) : Prop where
  nodeID : ∃ b, .op (.rand 16) b ∈ τ ∧ p.config.nodeID = generateNodeID b.1
  nodeType : ∃ v, .op (.lookupEnv (lit "NODE_TYPE")) v ∈ τ ∧
    p.config.nodeType = v.getD (lit "unknown")
  port : ∃ v, .op (.lookupEnv (lit "PORT")) v ∈ τ ∧
    p.config.port = atoiValue (v.getD (lit "8080")) ∧ p.addr = lit ":" ++ v.getD (lit "8080")
  generated : .op .generateKey (.ok p.privateKey) ∈ τ
  publicKey : ∃ der, K.marshalPKIX p.privateKey = .ok der ∧ p.config.publicKey = K.pemEncode der
  host : addresses X τ = [p.config.host] ∨ addresses X τ = [] ∧ p.config.host = []
  role : p.role = role

variable {X K} {τ : StartPast}

theorem addresses_append (τ τ' : StartPast) :
    addresses X (τ ++ τ') = addresses X τ ++ addresses X τ' := List.filterMap_append

theorem addresses_cons (x : Interaction StartEffects) (τ : StartPast) :
    addresses X (x :: τ) = (addressOf X x).toList ++ addresses X τ := by
  unfold addresses
  cases h : addressOf X x <;> simp [h]

theorem addressOf_get (url : Bytes) (answer : Result (Bytes × Option Bytes)) :
    addressOf X (.op (.get url) answer) =
      match if url = checkIPURL then readCheckIP answer else readMetadata X answer with
      | .error _ => none
      | .ok ip => if ip = [] then none else some ip := rfl

theorem path_getEnv {key fallback : String} {v : Bytes} (h : (getEnv key fallback).Path τ v) :
    ∃ x, τ = [.op (.lookupEnv (lit key)) x] ∧ v = x.getD (lit fallback) := by
  unfold getEnv at h
  simp only [ask_eq, op_bind, ret_bind, path_op] at h
  obtain ⟨x, τ', rfl, h⟩ := h
  cases x with
  | none =>
    obtain ⟨rfl, rfl⟩ := path_ret.mp h
    exact ⟨none, rfl, rfl⟩
  | some _ =>
    obtain ⟨rfl, rfl⟩ := path_ret.mp h
    exact ⟨some v, rfl, rfl⟩

/-- A duration is no address. -/
theorem path_getDurationEnv {key : String} {fallback t : Int}
    (h : (getDurationEnv K key fallback).Path τ t) : addresses X τ = [] := by
  unfold getDurationEnv at h
  simp only [ask_eq, op_bind, ret_bind, path_op] at h
  obtain ⟨v, _, rfl, h⟩ := h
  split_ifs at h
  · obtain ⟨rfl, -⟩ := path_ret.mp h
    rfl
  · split at h
    · obtain ⟨-, _, rfl, h⟩ := path_op.mp h
      obtain ⟨rfl, -⟩ := path_ret.mp h
      rfl
    · obtain ⟨rfl, -⟩ := path_ret.mp h
      rfl

/-- The configuration is read from the environment, and no address asked. -/
theorem path_load {cfg : NodeConfig} (h : (load K).Path τ (some cfg)) :
    (∃ v, .op (.lookupEnv (lit "PORT")) v ∈ τ ∧ cfg.port = v.getD (lit "8080")) ∧
    (∃ v, .op (.lookupEnv (lit "NODE_TYPE")) v ∈ τ ∧ cfg.nodeType = v.getD (lit "unknown")) ∧
    addresses X τ = [] := by
  unfold load at h
  obtain ⟨port, τ₁, τ₂, rfl, hport, h⟩ := path_bind.mp h
  obtain ⟨v, rfl, rfl⟩ := path_getEnv hport
  obtain ⟨nodeType, τ₃, τ₄, rfl, htype, h⟩ := path_bind.mp h
  obtain ⟨t, rfl, rfl⟩ := path_getEnv htype
  obtain ⟨url, τ₅, τ₆, rfl, hurl, h⟩ := path_bind.mp h
  have hquiet : addresses X τ₅ = [] := by
    unfold mustGetEnv at hurl
    simp only [ask_eq, op_bind, ret_bind, path_op] at hurl
    obtain ⟨u, τ₇, rfl, hurl⟩ := hurl
    split_ifs at hurl
    · obtain ⟨-, τ₈, rfl, hurl⟩ := path_op.mp hurl
      obtain ⟨rfl, -⟩ := path_ret.mp hurl
      rfl
    · obtain ⟨rfl, -⟩ := path_ret.mp hurl
      rfl
  cases url with
  | none =>
    obtain ⟨-, hnone⟩ := path_ret.mp h
    cases hnone
  | some url =>
    obtain ⟨interval, τ₇, τ₈, rfl, hinterval, h⟩ := path_bind.mp h
    obtain ⟨timeout, τ₉, τ₁₀, rfl, htimeout, h⟩ := path_bind.mp h
    simp only [ask_eq, op_bind, ret_bind, pure_eq, path_op, path_ret] at h
    obtain ⟨-, _, rfl, -, _, rfl, -, _, rfl, -, _, rfl, -, _, rfl, rfl, hcfg⟩ := h
    rw [Option.some.injEq] at hcfg
    rw [hcfg]
    refine ⟨⟨v, by simp, rfl⟩, ⟨t, by simp, rfl⟩, ?_⟩
    simp only [addresses_append, hquiet, path_getDurationEnv hinterval,
      path_getDurationEnv htimeout]
    rfl

/-! ### The address -/

theorem readCheckIP_ne_nil {answer : Result (Bytes × Option Bytes)} {ip : Bytes}
    (h : readCheckIP answer = .ok ip) : ip ≠ [] := by
  unfold readCheckIP at h
  split at h
  · cases h
  · cases h
  · dsimp only at h
    split_ifs at h with hip
    rw [← Except.ok.inj h]
    exact hip

/-- No endpoint of the metadata is the public service. -/
theorem metadata_ne_checkIP (uri : Bytes) : uri ++ lit "/task" ≠ checkIPURL := by
  intro h
  have hlast := congrArg List.getLast? h
  have htask : (lit "/task").getLast? = some 107 := by decide
  have hcom : checkIPURL.getLast? = some 109 := by decide
  rw [List.getLast?_append, htask, hcom] at hlast
  cases hlast

theorem path_checkIP {r : Result Bytes} (h : publicIPFromCheckIP.Path τ r) :
    addresses X τ = r.toOption.toList := by
  unfold publicIPFromCheckIP at h
  simp only [ask_eq, op_bind, ret_bind, pure_eq, path_op, path_ret] at h
  obtain ⟨answer, _, rfl, rfl, rfl⟩ := h
  rw [addresses_cons, addressOf_get, if_pos rfl]
  cases hr : readCheckIP answer with
  | error err => rfl
  | ok ip =>
    simp only [if_neg (readCheckIP_ne_nil hr)]
    rfl

/-- The address in the metadata, unless it is blank. -/
theorem path_metadata {uri : Bytes} {r : Result Bytes}
    (h : (ipFromECSMetadata X (uri ++ lit "/task")).Path τ r) :
    addresses X τ = (r.toOption.filter (· ≠ [])).toList := by
  unfold ipFromECSMetadata at h
  split at h
  · obtain ⟨rfl, rfl⟩ := path_ret.mp h
    rfl
  · simp only [ask_eq, op_bind, ret_bind, pure_eq, path_op, path_ret] at h
    obtain ⟨answer, _, rfl, rfl, rfl⟩ := h
    rw [addresses_cons, addressOf_get, if_neg (metadata_ne_checkIP uri)]
    cases readMetadata X answer with
    | error err => rfl
    | ok ip => by_cases hip : ip = [] <;> simp [hip, Except.toOption, addresses, Option.filter]

/-- The first endpoint that gives an address ends the loop. -/
theorem path_metadataVars {vars : List String} {r : Option Bytes}
    (h : (ipFromMetadataVars X vars).Path τ r) : addresses X τ = r.toList := by
  induction vars generalizing τ with
  | nil =>
    obtain ⟨rfl, rfl⟩ := path_ret.mp h
    rfl
  | cons envVar rest ih =>
    unfold ipFromMetadataVars at h
    simp only [ask_eq, op_bind, ret_bind, path_op] at h
    obtain ⟨x, τ₁, rfl, h⟩ := h
    rw [addresses_cons]
    split_ifs at h
    · exact ih h
    · obtain ⟨answer, τ₂, τ₃, rfl, hmeta, h⟩ := path_bind.mp h
      have haddr := path_metadata hmeta
      rw [addresses_append, haddr]
      cases answer with
      | error err =>
        obtain ⟨-, τ₄, rfl, h⟩ := path_op.mp h
        rw [addresses_cons, ih h]
        rfl
      | ok ip =>
        dsimp only at h
        split_ifs at h with hip
        · obtain ⟨-, τ₄, rfl, h⟩ := path_op.mp h
          rw [addresses_cons, ih h, hip]
          rfl
        · obtain ⟨rfl, rfl⟩ := path_ret.mp h
          simp [Except.toOption, hip, addresses, addressOf]

theorem path_resolve {r : Result Bytes} (h : (resolveOwnAddress X).Path τ r) :
    addresses X τ = r.toOption.toList := by
  unfold resolveOwnAddress at h
  obtain ⟨ip, τ₁, τ₂, rfl, hip, h⟩ := path_bind.mp h
  rw [addresses_append, path_checkIP hip]
  cases ip with
  | ok ip =>
    obtain ⟨rfl, rfl⟩ := path_ret.mp h
    rfl
  | error _ =>
    obtain ⟨ip, τ₃, τ₄, rfl, hip, hrest⟩ := path_bind.mp h
    rw [addresses_append, path_metadataVars hip]
    cases ip with
    | some ip =>
      obtain ⟨rfl, rfl⟩ := path_ret.mp hrest
      rfl
    | none =>
      simp only [ask_eq, op_bind, ret_bind, path_op] at hrest
      obtain ⟨answer, _, rfl, hlast⟩ := hrest
      cases answer with
      | error err =>
        obtain ⟨rfl, rfl⟩ := path_ret.mp hlast
        rfl
      | ok hostname =>
        obtain ⟨rfl, rfl⟩ := path_ret.mp hlast
        rfl

/-! ### The process -/

theorem path_keyPair {r : Result (PrivateKey × Bytes)} (h : (generateKeyPair K).Path τ r) :
    addresses X τ = [] ∧ ∀ priv pem, r = .ok (priv, pem) → .op .generateKey (.ok priv) ∈ τ ∧
      ∃ der, K.marshalPKIX priv = .ok der ∧ pem = K.pemEncode der := by
  unfold generateKeyPair at h
  simp only [ask_eq, op_bind, ret_bind, path_op] at h
  obtain ⟨answer, _, rfl, h⟩ := h
  cases answer with
  | error err =>
    obtain ⟨rfl, rfl⟩ := path_ret.mp h
    exact ⟨rfl, fun _ _ hr => by cases hr⟩
  | ok priv =>
    cases hder : K.marshalPKIX priv with
    | error err =>
      simp only [hder] at h
      obtain ⟨rfl, rfl⟩ := path_ret.mp h
      exact ⟨rfl, fun _ _ hr => by cases hr⟩
    | ok der =>
      simp only [hder] at h
      obtain ⟨rfl, rfl⟩ := path_ret.mp h
      refine ⟨rfl, fun priv' pem hr => ?_⟩
      rw [Except.ok.injEq, Prod.mk.injEq] at hr
      obtain ⟨rfl, rfl⟩ := hr
      exact ⟨List.mem_singleton_self _, der, hder, rfl⟩

/-- The ID is drawn, the keys generated, and the host the address given. -/
theorem path_identity {identity : Identity} (h : (newIdentity X K).Path τ (.ok identity)) :
    (∃ b, .op (.rand 16) b ∈ τ ∧ identity.nodeID = generateNodeID b.1) ∧
    .op .generateKey (.ok identity.privateKey) ∈ τ ∧
    (∃ der, K.marshalPKIX identity.privateKey = .ok der ∧
      identity.publicKeyPEM = K.pemEncode der) ∧
    (addresses X τ = [identity.host] ∨ addresses X τ = [] ∧ identity.host = []) := by
  unfold newIdentity at h
  simp only [ask_eq, op_bind, ret_bind, path_op] at h
  obtain ⟨b, τ₁, rfl, h⟩ := h
  obtain ⟨pair, τ₂, τ₃, rfl, hpair, h⟩ := path_bind.mp h
  obtain ⟨hquiet, hkeys⟩ := path_keyPair (X := X) hpair
  cases pair with
  | error err =>
    obtain ⟨-, herr⟩ := path_ret.mp h
    cases herr
  | ok pair =>
    obtain ⟨priv, pem⟩ := pair
    obtain ⟨hpriv, hder⟩ := hkeys priv pem rfl
    obtain ⟨host, τ₄, τ₅, rfl, hhost, h⟩ := path_bind.mp h
    have haddr : addresses X (.op (.rand 16) b :: (τ₂ ++ (τ₄ ++ τ₅))) =
        host.toOption.toList ++ addresses X τ₅ := by
      rw [addresses_cons, addresses_append, addresses_append, hquiet, path_resolve hhost]
      rfl
    cases host with
    | error err =>
      simp only [pure_eq, path_op, path_ret] at h
      obtain ⟨_, _, rfl, rfl, hid⟩ := h
      rw [Except.ok.injEq] at hid
      subst hid
      exact ⟨⟨b, by simp, rfl⟩, by simp [hpriv], hder, .inr ⟨haddr, rfl⟩⟩
    | ok host =>
      obtain ⟨rfl, hid⟩ := path_ret.mp h
      rw [Except.ok.injEq] at hid
      subst hid
      exact ⟨⟨b, by simp, rfl⟩, by simp [hpriv], hder, .inl haddr⟩

/-- **Start-up**: what the process is started as is what it was answered. -/
theorem started_of_run {role : Role} {p : Process} (h : (run X K role).Path τ (some (.ok p))) :
    Started X K τ role p := by
  unfold run at h
  obtain ⟨cfg, τ₁, τ₂, rfl, hcfg, h⟩ := path_bind.mp h
  cases cfg with
  | none =>
    obtain ⟨-, hnone⟩ := path_ret.mp h
    cases hnone
  | some cfg =>
    obtain ⟨⟨v, hv, hport⟩, ⟨t, ht, htype⟩, hquiet⟩ := path_load (X := X) hcfg
    obtain ⟨r, τ₃, τ₄, rfl, hidentity, h⟩ := path_bind.mp h
    cases r with
    | error err =>
      obtain ⟨-, herr⟩ := path_ret.mp h
      cases herr
    | ok identity =>
      obtain ⟨⟨b, hb, hid⟩, hpriv, hder, hhost⟩ := path_identity hidentity
      obtain ⟨rfl, hp⟩ := path_ret.mp h
      rw [Option.some.injEq, Except.ok.injEq] at hp
      subst hp
      refine ⟨⟨b, by simp [hb], hid⟩, ⟨t, by simp [ht], htype⟩, ⟨v, by simp [hv], ?_, ?_⟩,
        by simp [hpriv], hder, ?_, rfl⟩
      · rw [← hport]
      · rw [← hport]
      · rw [addresses_append, addresses_append, hquiet]
        simpa [addresses] using hhost

end HopVault.Startup
