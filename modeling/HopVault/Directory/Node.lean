import HopVault.Effects
import HopVault.Directory.Server

/-! # Registration and heartbeats

    `shared/node/registration.go`, composed with the directory server. A
    node registers until it is accepted once, and from then on only sends
    heartbeats. -/

namespace HopVault.Directory

open Framework Framework.Json Framework.Utf8

/-! ## Node IDs -/

/-- A digit as `%x` writes it. -/
def hexDigit (n : Nat) : UInt8 := UInt8.ofNat (if n < 10 then 48 + n else 87 + n)

/-- A byte slice as `%x` writes it. -/
def hex (bytes : Bytes) : Bytes :=
  bytes.flatMap fun b => [hexDigit (b.toNat / 16), hexDigit (b.toNat % 16)]

/-- `GenerateNodeID` from the 16 octets it reads. -/
def generateNodeID (b : Bytes) : Bytes :=
  -- version 4 and the RFC 4122 variant
  let b := (b.set 6 ((b.getD 6 0 &&& 0x0f) ||| 0x40)).set 8 ((b.getD 8 0 &&& 0x3f) ||| 0x80)
  hex (b.take 4) ++ lit "-" ++ hex ((b.drop 4).take 2) ++ lit "-" ++ hex ((b.drop 6).take 2) ++
    lit "-" ++ hex ((b.drop 8).take 2) ++ lit "-" ++ hex (b.drop 10)

/-! ## The node -/

/-- `RegisterRequest`, with the values of a `Config`. -/
def registerBody (cfg : NodeRegistration) : Bytes := (obj cfg.members).encode

/-- Whether `Register` and `sendHeartbeat` return without an error. -/
def accepted (resp : Response) : Bool := decide (200 ≤ resp.statusCode ∧ resp.statusCode < 300)

/-! ## Node and directory -/

/-- A request that another party sends to the directory. -/
inductive Request where
  | register (body : Bytes)
  | heartbeat (pathValue : Bytes)
  | deregister (pathValue : Bytes)

/-- The directory's registry and the node. -/
structure System where
  registry : NodeRegistry
  /-- The node has been accepted, and sends heartbeats. -/
  running : Bool
  /-- Registrations the node gave up that may still arrive. -/
  late : Nat

def System.start : System := ⟨.empty, false, 0⟩

inductive Event where
  /-- `Register` of a node that has not been accepted yet. -/
  | register (fate : Fate)
  /-- A registration the node gave up arrives. -/
  | lateRegister
  /-- `sendHeartbeat` of a running node. -/
  | heartbeat (fate : Fate)
  | request (q : Request)
  | cleanup
  /-- The directory restarts with an empty registry. -/
  | restart

variable (formatTime : Int → Bytes) (cfg : NodeRegistration) (heartbeatTimeout : Int)

def Request.serve (r : NodeRegistry) (now : Int) : Request → NodeRegistry
  | register body => (registerHandler formatTime r now body).2
  | heartbeat pathValue => (heartbeatHandler formatTime r now pathValue).2
  | deregister pathValue => (deregisterHandler r pathValue).2

/-- One step of the node and the directory, whose clock reads anything. -/
inductive Step : System → Event → System → Prop
  | register {s : System} (now : Int) : s.running = false →
      Step s (.register .deliver)
        { s with
          registry := (registerHandler formatTime s.registry now (registerBody cfg)).2
          running := accepted (registerHandler formatTime s.registry now (registerBody cfg)).1 }
  | registerUnanswered {s : System} (now : Int) (err : Bytes) : s.running = false →
      Step s (.register (.loseResponse err))
        { s with registry := (registerHandler formatTime s.registry now (registerBody cfg)).2 }
  | registerLost {s : System} (err : Bytes) : s.running = false →
      Step s (.register (.loseRequest err)) { s with late := s.late + 1 }
  | lateRegister {s : System} (now : Int) (n : Nat) : s.late = n + 1 →
      Step s .lateRegister
        { s with
          registry := (registerHandler formatTime s.registry now (registerBody cfg)).2
          late := n }
  | heartbeat {s : System} (now : Int) (fate : Fate) : s.running = true →
      (∀ err, fate ≠ .loseRequest err) →
      -- whatever the answer is, the node only logs it
      Step s (.heartbeat fate)
        { s with registry := (heartbeatHandler formatTime s.registry now cfg.nodeID).2 }
  | heartbeatLost {s : System} (err : Bytes) : s.running = true →
      Step s (.heartbeat (.loseRequest err)) s
  | request {s : System} (now : Int) (q : Request) :
      Step s (.request q) { s with registry := q.serve formatTime s.registry now }
  | cleanup {s : System} (now : Int) (order : List (Bytes × NodeRecord)) :
      order.Perm s.registry.entries →
      Step s .cleanup
        { s with registry := (cleanupUnhealthyNodes s.registry order now heartbeatTimeout).2 }
  | restart {s : System} : Step s .restart { s with registry := .empty }

/-- Steps of which all events satisfy `P`. -/
def Run (P : Event → Prop) : System → System → Prop :=
  Relation.ReflTransGen fun s s' => ∃ e, P e ∧ Step formatTime cfg heartbeatTimeout s e s'

variable {formatTime cfg heartbeatTimeout} in
theorem Run.weaken {P Q : Event → Prop} {s s' : System}
    (h : Run formatTime cfg heartbeatTimeout P s s') (himp : ∀ e, P e → Q e) :
    Run formatTime cfg heartbeatTimeout Q s s' := by
  induction h with
  | refl => exact .refl
  | tail _ hlast ih =>
    obtain ⟨e, he, hstep⟩ := hlast
    exact ih.tail ⟨e, himp e he, hstep⟩

end HopVault.Directory
