import HopVault.HonestRun

/-! # A small deployment

    One guard, one relay and one exit over libraries that meet the
    assumptions made of them. The stand-in for AES-GCM puts the key in
    front of the plaintext, and the one for RSA-OAEP the public key behind
    it: they hide nothing, but open exactly what was made with their key. -/

namespace HopVault.Sample

open Framework Framework.Json Framework.Prog Framework.Utf8 Framework.Decimal

/-! ## Libraries -/

def gcmOpen (key data : Bytes) : Option Bytes :=
  if key.isPrefixOf data then some (data.drop key.length) else none

def encryptOAEP (pub : PublicKey) (msg : Bytes) : Result Bytes :=
  if msg.length = sessionKeySize then .ok (msg ++ pub)
  else .error (lit "crypto/rsa: message too long for RSA key size")

def decryptOAEP (priv : PrivateKey) (ct : Bytes) : Result Bytes :=
  if ct.drop sessionKeySize = priv then .ok (ct.take sessionKeySize)
  else .error (lit "crypto/rsa: decryption error")

def externals : Externals where
  gcmSeal key _ plaintext := key ++ plaintext
  gcmOpen key _ data := gcmOpen key data
  encryptOAEP pub _ msg := encryptOAEP pub msg
  decryptOAEP := decryptOAEP
  pemDecode := some
  parsePKIX block := .ok (.rsa block)
  newRequest _ _ := .ok ()
  jsonError _ := lit "invalid JSON"
  parseTime _ := some 0

theorem isPrefixOf_append (a b : Bytes) : a.isPrefixOf (a ++ b) = true := by
  rw [List.isPrefixOf_iff_prefix]
  exact List.prefix_append a b

theorem lawfulAEAD : externals.LawfulAEAD := by
  intro key nonce _ _ plaintext
  show gcmOpen key (key ++ plaintext) = some plaintext
  unfold gcmOpen
  rw [if_pos (isPrefixOf_append _ _), List.drop_left]

/-- Only messages of the size of a session key are encrypted. -/
theorem encryptOAEP_eq_ok {pub : PublicKey} {msg ct : Bytes} (h : encryptOAEP pub msg = .ok ct) :
    msg.length = sessionKeySize ∧ ct = msg ++ pub := by
  unfold encryptOAEP at h
  split_ifs at h with hmsg
  exact ⟨hmsg, (Except.ok.inj h).symm⟩

theorem keyPair (key : Bytes) : externals.KeyPair key key := by
  intro seed msg _ hmsg
  refine ⟨msg ++ key, fun h => ?_, if_pos hmsg, ?_⟩
  · rw [(List.append_eq_nil_iff.mp h).1] at hmsg
    cases hmsg
  · show decryptOAEP key (msg ++ key) = .ok msg
    unfold decryptOAEP
    rw [← hmsg, List.drop_left, if_pos rfl, List.take_left]

theorem faithfulOAEP : externals.FaithfulOAEP := by
  intro pub seed msg ct priv msg' henc hdec
  obtain ⟨hmsg, rfl⟩ := encryptOAEP_eq_ok henc
  have hdec : decryptOAEP priv (msg ++ pub) = .ok msg' := hdec
  unfold decryptOAEP at hdec
  split_ifs at hdec
  rw [← hmsg, List.take_left] at hdec
  exact (Except.ok.inj hdec).symm

/-! ## Nodes -/

/-- Each node is known by its role. -/
abbrev Node : Type := Role

/-- The host name of a node, which is also its key pair. -/
def host : Node → Bytes
  | .guard => lit "g"
  | .relay => lit "r"
  | .exit => lit "e"

/-- The directory's record of a node. -/
def record (n : Node) : NodeRecord := ⟨host n, [], host n, 1, host n, NodeRecord.zeroTime, []⟩

/-- The URLs of the handlers the client and the hops post to. -/
def routes : List (Bytes × Node × Endpoint) :=
  [Role.guard, Role.relay, Role.exit].flatMap fun n =>
    [((record n).nodeURL ++ lit "/setup", n, .setup), ((record n).nodeURL ++ lit "/onion", n, .onion)]

def net : Net Node where
  X := externals
  role := id
  priv := host
  route url := routes.lookup url
  remoteAddr
    | .client => lit "c"
    | .node n => host n
    | .nowhere => []
  dialError _ := lit "connection refused"

/-- Every node can be reached under its record. -/
theorem honest (n : Node) : net.Honest (record n) n := by
  refine ⟨?_, ?_, ⟨host n, rfl, keyPair (host n)⟩, ?_⟩
  · cases n <;> rfl
  · cases n <;> rfl
  · cases n <;> (show toValid _ = _; decide +kernel)

/-- The circuit over the three nodes. -/
def circuit : CircuitResponse := ⟨record .guard, record .relay, record .exit⟩

theorem circuit_three : net.Circuit circuit 3 [.guard, .relay, .exit] :=
  ⟨.cons (honest .guard) (.cons (honest .relay) (.cons (honest .exit) .nil)), by decide, rfl⟩

/-! ## Worlds -/

/-- The answer of the destination. -/
def response : DestResponse := ⟨200, .empty, lit "ok"⟩

/-- A node as the directory reports it. -/
def nodeJson (n : NodeRecord) : Json :=
  .obj [(lit "nodeId", .str n.nodeID), (lit "host", .str n.host),
    (lit "port", .num (itoa n.port.toInt)), (lit "publicKey", .str n.publicKey)]

/-- The directory's answer with a circuit. -/
def directory (c : CircuitResponse) : Response :=
  ⟨statusOK, (Json.obj [(lit "guard", nodeJson c.guard), (lit "relay", nodeJson c.relay),
    (lit "exit", nodeJson c.exit)]).encode⟩

/-- What the outside decides when nothing goes wrong: a key drawn as the
    `m`-th choice of a location is `m` throughout. -/
def choice (m : Nat) : Choice where
  rand n := ⟨List.replicate n (UInt8.ofNat m), List.length_replicate⟩
  order s := ⟨s.entries, .refl _⟩
  dest _ := .answered response
  get _ := .ok (directory circuit)
  time := 0
  fate := .deliver
  fault := lit "timeout"

variable {ι : Type}

/-- The world before anything has happened. -/
def start : World ι Node where
  keys _ _ := none
  stores _ := []
  calls _ := []
  received _ := []
  journal _ := .zero
  faulty _ := false
  logs _ := []
  oracle _ := choice
  used _ := 0

/-- A request to the destination. -/
def layer : ExitLayer := ⟨lit "http://d", lit "GET", .empty, []⟩

theorem layer_executable : layer.Executable externals := ⟨by decide, by decide, rfl⟩

/-- The client's call for it over three hops. -/
def call : Call := ⟨[], lit "c1", layer, 3, 1⟩

/-! ## Ciphertexts -/

/-- Three different keys. -/
def keys : SessionKeys := ⟨List.replicate 32 1, List.replicate 32 2, List.replicate 32 3⟩

/-- A ciphertext, with a nonce of zeros. -/
def sealed (key plaintext : Bytes) : Bytes := List.replicate nonceSize 0 ++ (key ++ plaintext)

theorem sealed_ne_nil {key plaintext : Bytes} : sealed key plaintext ≠ [] :=
  List.append_ne_nil_of_left_ne_nil (by decide) _

theorem yields_encrypt {key : Bytes} (hkey : key.length = sessionKeySize) (plaintext : Bytes) :
    Yields (encrypt externals key plaintext) (.ok (sealed key plaintext)) := by
  unfold encrypt
  rw [newCipher_of_length hkey]
  exact .op ⟨List.replicate nonceSize 0, List.length_replicate⟩ .ret

theorem decrypt_eq {key : Bytes} (hkey : key.length = sessionKeySize) (plaintext : Bytes) :
    decrypt externals key (sealed key plaintext) = .ok plaintext :=
  decrypt_sealed lawfulAEAD (newCipher_of_length hkey) List.length_replicate plaintext

/-- An exit layer as the exit node reads it. -/
theorem unwrapExitLayer_eq {key : Bytes} (hkey : key.length = sessionKeySize) {l : ExitLayer}
    (htext : l.coerced = l) (hurl : l.url ≠ []) (hmethod : l.method ≠ []) :
    unwrapExitLayer externals key (sealed key l.json.encode) = .ok l := by
  have hne : ¬(l.coerced.url = [] ∨ l.coerced.method = []) := by
    rw [htext]
    exact fun h => h.elim hurl hmethod
  rw [unwrapExitLayer_of_decrypt (decrypt_eq hkey _) hne, htext]

/-- A request for circuit `c1`, as a node gets it. -/
def request (payload : Bytes) : ServerRequest :=
  ⟨methodPost, lit "r", (OnionRequest.json ⟨lit "c1", payload⟩).encode⟩

end HopVault.Sample
