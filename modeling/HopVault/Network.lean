import HopVault.Framework.Interleaving
import HopVault.Onion.Handler
import HopVault.Client

/-! # The network

    Clients and onion nodes over one world. A call of the client and all
    the work it causes at nodes carry the same *owner*, so that the world
    can attribute what happens to the call that caused it; no program
    sees the owner.

    What no program decides (random bits, the order of a map, the clock,
    answers of destinations and of the directory, transport errors) is
    read from a sequence of `Choice`s that the world holds for every
    place and owner. A statement for all worlds is a statement for all of
    these. -/

namespace HopVault

open Framework

/-! ## The world -/

/-- Where a program runs. -/
inductive Place (ν : Type) where
  | client
  | node (n : ν)
  /-- Where requests to an address end at which nobody listens. -/
  | nowhere
  deriving DecidableEq, Repr

/-- The place of a program and the owner of the call it works for. -/
abbrev Loc (ι ν : Type) : Type := ι × Place ν

/-- What the outside decides for one operation. -/
structure Choice where
  rand : (n : Nat) → {b : Bytes // b.length = n}
  order : (m : SortedMap Bytes Bytes) → {l : List (Bytes × Bytes) // l.Perm m.entries}
  dest : DestRequest → DestOutcome
  get : Bytes → Result Response
  time : Int
  fate : Fate
  /-- The text of a transport error. -/
  fault : Bytes

/-- A message a node has received: a request at an endpoint, or a response
    to its own request (`none`), with the address of the peer. -/
structure Received (ν : Type) where
  node : ν
  endpoint : Option Endpoint
  peer : Bytes
  body : Bytes

/-- How far a call of the client has got. -/
structure Journal where
  /-- The attempts begun so far. -/
  attempt : Nat
  /-- Session keys posted: the attempt, the node's URL and the key. -/
  posted : List (Nat × Bytes × Bytes)
  /-- The node URLs and session keys of the current attempt, from the end
      of its set-up to its own end. -/
  established : Option (List (Bytes × Bytes))
  /-- The onions posted so far. -/
  sent : Nat

/-- The state of all processes and what is recorded about the calls. -/
structure World (ι ν : Type) where
  /-- The key stores of the nodes. -/
  keys : ν → Bytes → Option Bytes
  /-- The keys stored for a call, oldest first: node, circuit and key. -/
  stores : ι → List (ν × Bytes × Bytes)
  /-- The destination requests made for a call, oldest first. -/
  calls : ι → List (DestRequest × DestOutcome)
  /-- The messages nodes have received for a call, oldest first. -/
  received : ι → List (Received ν)
  journal : ι → Journal
  /-- Some exchange of the call met a transport fault. -/
  faulty : ι → Bool
  logs : Loc ι ν → List Bytes
  oracle : Loc ι ν → Nat → Choice
  /-- The choices used up so far. -/
  used : Loc ι ν → Nat

namespace Journal

def zero : Journal := ⟨0, [], none, 0⟩

/-- Record a milestone. -/
def mark (j : Journal) : Milestone → Journal
  | .attempt => { j with attempt := j.attempt + 1 }
  | .posting nodeURL key => { j with posted := j.posted ++ [(j.attempt, nodeURL, key)] }
  | .established keys => { j with established := some keys }
  | .sending => { j with sent := j.sent + 1 }
  | .ended => { j with established := none }

end Journal

namespace World

variable {ι ν : Type} [DecidableEq ι] [DecidableEq ν]

/-- The next choice of a location. -/
def choice (w : World ι ν) (ℓ : Loc ι ν) : Choice := w.oracle ℓ (w.used ℓ)

/-- Use up a choice. -/
def tick (w : World ι ν) (ℓ : Loc ι ν) : World ι ν :=
  { w with used := Function.update w.used ℓ (w.used ℓ + 1) }

/-- `KeyStore.Get` of the process at a place; a client has no store. -/
def keysGet (w : World ι ν) (circuitID : Bytes) : Place ν → Option Bytes
  | .node n => w.keys n circuitID
  | _ => none

/-- `KeyStore.Store` of the process at a place. -/
def keysStore (w : World ι ν) (ℓ : Loc ι ν) (circuitID key : Bytes) : World ι ν :=
  match ℓ.2 with
  | .node n =>
    { w with
      keys := Function.update w.keys n (Function.update (w.keys n) circuitID (some key))
      stores := Function.update w.stores ℓ.1 (w.stores ℓ.1 ++ [(n, circuitID, key)]) }
  | _ => w

/-- Record a message a node has received. -/
def accept (w : World ι ν) (ℓ : Loc ι ν) (endpoint : Option Endpoint) (peer body : Bytes) :
    World ι ν :=
  match ℓ.2 with
  | .node n =>
    { w with received :=
        Function.update w.received ℓ.1 (w.received ℓ.1 ++ [⟨n, endpoint, peer, body⟩]) }
  | _ => w

/-- What an operation answers and does. -/
def act (ℓ : Loc ι ν) (e : Effect) (w : World ι ν) : e.Ans × World ι ν :=
  let c := w.choice ℓ
  let w := w.tick ℓ
  match e with
  | .log line => ((), { w with logs := Function.update w.logs ℓ (w.logs ℓ ++ [line]) })
  | .rand n => (c.rand n, w)
  | .keysGet circuitID => (w.keysGet circuitID ℓ.2, w)
  | .keysStore circuitID key => ((), w.keysStore ℓ circuitID key)
  | .range m => (c.order m, w)
  | .clientDo req =>
    (c.dest req, { w with calls := Function.update w.calls ℓ.1 (w.calls ℓ.1 ++ [(req, c.dest req)]) })
  | .now => (c.time, w)
  | .httpGet url => (c.get url, w)
  | .fate => (c.fate, w)
  | .mark m => ((), { w with journal := Function.update w.journal ℓ.1 ((w.journal ℓ.1).mark m) })
  | .accept endpoint peer body => ((), w.accept ℓ endpoint peer body)

end World

/-! ## Nodes -/

/-- What a node was started as. -/
inductive Role where
  | guard
  | relay
  | exit
  deriving DecidableEq, Repr

/-- A deployment: libraries, nodes and addresses. -/
structure Net (ν : Type) where
  X : Externals
  role : ν → Role
  priv : ν → PrivateKey
  /-- The handler a URL leads to, by name resolution and routing. -/
  route : Bytes → Option (ν × Endpoint)
  /-- The network address a server sees of a peer. -/
  remoteAddr : Place ν → Bytes
  /-- The transport error for a URL at which nobody listens. -/
  dialError : Bytes → Bytes

namespace Net

variable {ι ν : Type} [DecidableEq ι] [DecidableEq ν] (N : Net ν)

/-- The routes of `guard-node`, `relay-node` and `exit-node`. -/
def handle (n : ν) (endpoint : Endpoint) (r : ServerRequest) : Go Response :=
  match endpoint, N.role n with
  | .setup, _ => handleSetup N.X (N.priv n) r
  | .key, .guard => (newHandlerWithDirectExit (lit "guard")).handleKey r
  | .key, .relay => (newHandler (lit "relay")).handleKey r
  | .key, .exit => ExitHandler.handleKey r
  | .onion, .guard => (newHandlerWithDirectExit (lit "guard")).handleOnion N.X r
  | .onion, .relay => (newHandler (lit "relay")).handleOnion N.X r
  | .onion, .exit => ExitHandler.handleOnion N.X r

/-- A node receives a POST and handles it. -/
def serveAt (n : ν) (endpoint : Endpoint) (remoteAddr : Bytes) (q : Post) :
    Go (Result Response) := do
  perform (.accept (some endpoint) remoteAddr q.body)
  let resp ← N.handle n endpoint ⟨methodPost, remoteAddr, q.body⟩
  return .ok resp

/-- Who serves a POST, and how. -/
def serve (ℓ : Loc ι ν) (q : Post) : Loc ι ν × Go (Result Response) :=
  match N.route q.url with
  | some (n, endpoint) => ((ℓ.1, .node n), N.serveAt n endpoint (N.remoteAddr ℓ.2) q)
  | none => ((ℓ.1, .nowhere), return .error (N.dialError q.url))

/-- The network in which every message arrives. -/
def reliable : Semantics Effects (Loc ι ν) (World ι ν) := ⟨World.act, N.serve⟩

/-- An exchange whose request or response may be lost. -/
def lossyExchange (p : Go (Result Response)) : Go (Result Response) := do
  match ← perform .fate with
  | .deliver => p
  | .loseRequest err => return .error err
  | .loseResponse err => do
    let _ ← p
    return .error err

/-- The network in which every exchange may fail, one call at a time. -/
def lossy : Semantics Effects (Loc ι ν) (World ι ν) :=
  ⟨World.act, fun ℓ q => ((N.serve ℓ q).1, lossyExchange (N.serve ℓ q).2)⟩

/-- The network with any number of calls at once and time-outs. -/
def asynchronous : Distributed Effects (Loc ι ν) (World ι ν) where
  act := World.act
  serve := N.serve
  giveUp ℓ w := (.error (w.choice ℓ).fault,
    { w.tick ℓ with faulty := Function.update w.faulty ℓ.1 true })

end Net

/-! ## Assumptions on libraries -/

/-- AES-GCM opens what it sealed. -/
def Externals.LawfulAEAD (X : Externals) : Prop :=
  ∀ {key nonce : Bytes}, newCipher key = .ok () → nonce.length = nonceSize →
    ∀ plaintext, X.gcmOpen key nonce (X.gcmSeal key nonce plaintext) = some plaintext

/-- The private key decrypts what OAEP encrypted with the public key. -/
def Externals.KeyPair (X : Externals) (pub : PublicKey) (priv : PrivateKey) : Prop :=
  ∀ seed msg : Bytes, seed.length = oaepSeedSize → msg.length = sessionKeySize →
    ∃ ct, ct ≠ [] ∧ X.encryptOAEP pub seed msg = .ok ct ∧ X.decryptOAEP priv ct = .ok msg

/-- OAEP decrypts to the message that was encrypted, or fails. -/
def Externals.FaithfulOAEP (X : Externals) : Prop :=
  ∀ {pub : PublicKey} {seed msg ct : Bytes} {priv : PrivateKey} {msg' : Bytes},
    X.encryptOAEP pub seed msg = .ok ct → X.decryptOAEP priv ct = .ok msg' → msg' = msg

/-- The record of an honest node that can be reached at its address. -/
structure Net.Honest {ν : Type} (N : Net ν) (rec : NodeRecord) (n : ν) : Prop where
  setupRoute : N.route (rec.nodeURL ++ lit "/setup") = some (n, .setup)
  onionRoute : N.route (rec.nodeURL ++ lit "/onion") = some (n, .onion)
  publicKey : ∃ pub, parsePublicKey N.X rec.publicKey = .ok pub ∧ N.X.KeyPair pub (N.priv n)
  /-- The address is text, so that it survives the trip through JSON. -/
  addr : Utf8.Valid rec.addr

end HopVault
