import HopVault.Framework.Prog
import HopVault.Http

/-! # What the code takes from outside

    `Externals` are the pure functions of libraries: AES-GCM, RSA-OAEP,
    key parsing, URL checking and error texts. `Effect` are the operations
    of a running program: randomness, the clock, the log, the key store of
    the process, the iteration order of a map, and HTTP exchanges that do
    not go to an onion node. A POST to an onion node is a remote call.

    `mark` and `accept` have no counterpart in the code. They record how
    far a call of the client has got and what a node has received, so that
    properties of runs can speak of it, and answer nothing. -/

namespace HopVault

open Framework Framework.Decimal

/-- `*rsa.PublicKey`, as its encoding. -/
abbrev PublicKey : Type := Bytes

/-- `*rsa.PrivateKey`, as its encoding. -/
abbrev PrivateKey : Type := Bytes

/-- What `x509.ParsePKIXPublicKey` may find in a key. -/
inductive PKIXKey where
  | rsa (pub : PublicKey)
  | other
  deriving DecidableEq, Repr

/-- Pure functions of libraries. -/
structure Externals where
  /-- `gcm.Seal` without its nonce prefix: ciphertext and tag. -/
  gcmSeal : (key nonce plaintext : Bytes) → Bytes
  /-- `gcm.Open`; `none` when authentication fails. -/
  gcmOpen : (key nonce data : Bytes) → Option Bytes
  /-- `rsa.EncryptOAEP` with SHA-256; `seed` is what it reads from the
      random source. -/
  encryptOAEP : (pub : PublicKey) → (seed msg : Bytes) → Result Bytes
  /-- `rsa.DecryptOAEP` with SHA-256. -/
  decryptOAEP : (priv : PrivateKey) → (ciphertext : Bytes) → Result Bytes
  /-- `pem.Decode`: the octets of the first block. -/
  pemDecode : Bytes → Option Bytes
  /-- `x509.ParsePKIXPublicKey`. -/
  parsePKIX : Bytes → Result PKIXKey
  /-- The checks of `http.NewRequestWithContext`. -/
  newRequest : (method url : Bytes) → Result Unit
  /-- The text of the error a JSON decoder gives for a text. -/
  jsonError : Bytes → Bytes
  /-- `time.Time` read from a string, in nanoseconds. -/
  parseTime : Bytes → Option Int

/-- What the transport does to one exchange. -/
inductive Fate where
  | deliver
  /-- The request does not arrive; the caller gets an error. -/
  | loseRequest (err : Bytes)
  /-- The request is served, but the caller gets an error. -/
  | loseResponse (err : Bytes)
  deriving DecidableEq, Repr

/-- The handlers of an onion node. -/
inductive Endpoint where
  | key
  | setup
  | onion
  deriving DecidableEq, Repr

/-- Progress of a client call, for properties of runs. -/
inductive Milestone where
  /-- An attempt begins. -/
  | attempt
  /-- A session key is about to be posted to a node. -/
  | posting (nodeURL key : Bytes)
  /-- The set-up of the current attempt has returned these keys, for the
      nodes at these URLs. -/
  | established (keys : List (Bytes × Bytes))
  /-- The onion of the current attempt is about to be posted. -/
  | sending
  /-- The current attempt is over. -/
  | ended
  deriving DecidableEq, Repr

/-- Operations of a program. -/
inductive Effect where
  /-- `log.Printf`. -/
  | log (line : Bytes)
  /-- `rand.Read` of a buffer; it does not fail. -/
  | rand (n : Nat)
  /-- `KeyStore.Get` of the process. -/
  | keysGet (circuitID : Bytes)
  /-- `KeyStore.Store` of the process. -/
  | keysStore (circuitID key : Bytes)
  /-- The order in which a map is ranged over. -/
  | range (m : SortedMap Bytes Bytes)
  /-- `client.Do` of a request to the destination, body read. -/
  | clientDo (req : DestRequest)
  /-- `time.Now`, in nanoseconds. -/
  | now
  /-- `client.Get` of a URL of the directory server. -/
  | httpGet (url : Bytes)
  /-- The transport's choice for an exchange. -/
  | fate
  | mark (m : Milestone)
  /-- A request at an endpoint, or the response (`none`) of a peer. -/
  | accept (endpoint : Option Endpoint) (peer body : Bytes)

namespace Effect

/-- The answers to an operation. -/
abbrev Ans : Effect → Type
  | rand n => {b : Bytes // b.length = n}
  | keysGet _ => Option Bytes
  | range m => {l : List (Bytes × Bytes) // l.Perm m.entries}
  | clientDo _ => DestOutcome
  | now => Int
  | httpGet _ => Result Response
  | fate => Fate
  | _ => Unit

end Effect

/-- The interactions of the programs of the system; a remote call is a POST
    to an onion node, answered by a response or a transport error. -/
abbrev Effects : Sig where
  Op := Effect
  Ans := Effect.Ans
  Req := Post
  Resp := Result Response

/-- A program of the system. -/
abbrev Go (α : Type) : Type := Prog Effects α

/-- Perform an operation. -/
def perform (e : Effect) : Go e.Ans := Prog.perform (S := Effects) e

/-- `log.Printf`. -/
def logPrintf (line : Bytes) : Go Unit := perform (.log line)

/-- `client.Post` to an onion node. -/
def clientPost (url : Bytes) (body : Bytes) : Go (Result Response) :=
  Prog.call (S := Effects) ⟨url, lit "application/json", body⟩

/-- Record the response to a POST. -/
def acceptResponse (url : Bytes) (resp : Result Response) : Go Unit :=
  match resp with
  | .error _ => return ()
  | .ok resp => perform (.accept none url resp.body)

@[simp] theorem perform_eq (e : Effect) : perform e = .op e .ret := rfl

@[simp] theorem logPrintf_eq (line : Bytes) : logPrintf line = .op (.log line) .ret := rfl

@[simp] theorem clientPost_eq (url body : Bytes) :
    clientPost url body = .rpc ⟨url, lit "application/json", body⟩ .ret := rfl

end HopVault
