import HopVault.Footprint
import HopVault.Sample
import HopVault.Framework.History

/-! # The key store of a node

    Three handlers write the store of a node: the two `HandleKey` and
    `HandleSetup`. Each rejects a request or stores the one key it
    carries. From that: what the store holds after any sequence of
    requests, and that no key in it makes the creation of a cipher fail. -/

namespace HopVault

open Framework Framework.Json Framework.Prog

variable {ν : Type}

/-! ## Requests that register keys -/

/-- A request to `POST /key` of a forwarding node or of an exit, or to
    `POST /setup`, with any method and any body. -/
inductive KeyCall where
  | key (h : Handler) (r : ServerRequest)
  | exitKey (r : ServerRequest)
  | setup (r : ServerRequest)

namespace KeyCall

/-- The handler that serves the request. -/
def handler (X : Externals) (priv : PrivateKey) : KeyCall → Go Response
  | key h r => h.handleKey r
  | exitKey r => ExitHandler.handleKey r
  | setup r => handleSetup X priv r

/-- The body names a circuit and holds a key, in the clear or encrypted
    for the node. -/
def Carries (X : Externals) (priv : PrivateKey) (circuitID key : Bytes) : KeyCall → Prop
  | .key _ r | .exitKey r => ∃ req, decodeStream KeyRequest.fields .zero r.body = some req ∧
      req.circuitID = circuitID ∧ Base64.decode req.key = some key
  | .setup r => ∃ req ct, decodeStream KeySetupRequest.fields .zero r.body = some req ∧
      req.circuitID = circuitID ∧ Base64.decode req.encryptedKey = some ct ∧
      decryptKey X priv ct = .ok key

/-- A request carries one key. -/
theorem Carries.unique {X : Externals} {priv : PrivateKey} {c c' k k' : Bytes} {call : KeyCall}
    (h : call.Carries X priv c k) (h' : call.Carries X priv c' k') : c = c' ∧ k = k' := by
  cases call with
  | setup r =>
    obtain ⟨req, ct, hreq, rfl, hct, hk⟩ := h
    obtain ⟨req', ct', hreq', rfl, hct', hk'⟩ := h'
    obtain rfl : req = req' := Option.some.inj (hreq.symm.trans hreq')
    obtain rfl : ct = ct' := Option.some.inj (hct.symm.trans hct')
    exact ⟨rfl, Except.ok.inj (hk.symm.trans hk')⟩
  | key _ r | exitKey r =>
    obtain ⟨req, hreq, rfl, hk⟩ := h
    obtain ⟨req', hreq', rfl, hk'⟩ := h'
    obtain rfl : req = req' := Option.some.inj (hreq.symm.trans hreq')
    exact ⟨rfl, Option.some.inj (hk.symm.trans hk')⟩

end KeyCall

/-- An answer of the 400 class. -/
def Response.Rejects (resp : Response) : Prop := 400 ≤ resp.statusCode ∧ resp.statusCode < 500

theorem Response.Rejects.ne_noContent {resp : Response} (h : resp.Rejects) :
    resp.statusCode ≠ statusNoContent := by
  intro h204
  have h400 := h.1
  rw [h204] at h400
  exact absurd h400 (by decide)

/-- Store a key for a circuit, log a line and answer 204. -/
def storeKey (circuitID key line : Bytes) : Go Response := do
  perform (.keysStore circuitID key)
  logPrintf line
  return writeHeader statusNoContent

/-- The two `HandleKey` take the same decision on every request. -/
theorem handleKeyAs_cases (r : ServerRequest) :
    (∃ resp : Response, resp.Rejects ∧ ∀ label, handleKeyAs label r = .ret resp) ∨
    ∃ req key, decodeStream KeyRequest.fields .zero r.body = some req ∧
      Base64.decode req.key = some key ∧ key.length = 32 ∧
      ∀ label, ∃ line, handleKeyAs label r = storeKey req.circuitID key line := by
  have h400 (message : String) : (httpError message statusBadRequest).Rejects :=
    show (400 : Int) ≤ 400 ∧ (400 : Int) < 500 by decide
  have h405 (message : String) : (httpError message statusMethodNotAllowed).Rejects :=
    show (400 : Int) ≤ 405 ∧ (405 : Int) < 500 by decide
  -- the label only shows in the line that is logged
  unfold handleKeyAs
  by_cases hpost : r.method ≠ methodPost
  · exact .inl ⟨_, h405 _, fun _ => if_pos hpost⟩
  simp only [if_neg hpost]
  cases hreq : decodeStream KeyRequest.fields KeyRequest.zero r.body with
  | none => exact .inl ⟨_, h400 _, fun _ => rfl⟩
  | some req =>
    dsimp only
    by_cases hempty : req.circuitID = [] ∨ req.key = []
    · exact .inl ⟨_, h400 _, fun _ => if_pos hempty⟩
    simp only [if_neg hempty]
    cases hkey : Base64.decode req.key with
    | none => exact .inl ⟨_, h400 _, fun _ => rfl⟩
    | some key =>
      dsimp only
      by_cases hlen : key.length ≠ 32
      · exact .inl ⟨_, h400 _, fun _ => if_pos hlen⟩
      · refine .inr ⟨req, key, rfl, hkey, Decidable.not_not.mp hlen, fun label => ⟨_, if_neg hlen⟩⟩

/-- `HandleSetup` rejects a request, perhaps with a line in the log, or
    stores the key it carries. -/
theorem handleSetup_cases (X : Externals) (priv : PrivateKey) (r : ServerRequest) :
    (∃ resp : Response, resp.Rejects ∧ (handleSetup X priv r = .ret resp ∨
      ∃ line, handleSetup X priv r = .op (.log line) fun _ => .ret resp)) ∨
    ∃ req ct key line, decodeStream KeySetupRequest.fields .zero r.body = some req ∧
      Base64.decode req.encryptedKey = some ct ∧ decryptKey X priv ct = .ok key ∧
      key.length = 32 ∧ handleSetup X priv r = storeKey req.circuitID key line := by
  have h400 (message : String) : (httpError message statusBadRequest).Rejects :=
    show (400 : Int) ≤ 400 ∧ (400 : Int) < 500 by decide
  have h405 (message : String) : (httpError message statusMethodNotAllowed).Rejects :=
    show (400 : Int) ≤ 405 ∧ (405 : Int) < 500 by decide
  unfold handleSetup
  by_cases hpost : r.method ≠ methodPost
  · exact .inl ⟨_, h405 _, .inl (if_pos hpost)⟩
  simp only [if_neg hpost]
  cases hreq : decodeStream KeySetupRequest.fields KeySetupRequest.zero r.body with
  | none => exact .inl ⟨_, h400 _, .inl rfl⟩
  | some req =>
    dsimp only
    by_cases hempty : req.circuitID = [] ∨ req.encryptedKey = []
    · exact .inl ⟨_, h400 _, .inl (if_pos hempty)⟩
    simp only [if_neg hempty]
    cases hct : Base64.decode req.encryptedKey with
    | none => exact .inl ⟨_, h400 _, .inl rfl⟩
    | some ct =>
      dsimp only
      cases hkey : decryptKey X priv ct with
      | error err => exact .inl ⟨_, h400 _, .inr ⟨_, rfl⟩⟩
      | ok key =>
        dsimp only
        by_cases hlen : key.length ≠ 32
        · exact .inl ⟨_, h400 _, .inr ⟨_, if_pos hlen⟩⟩
        · exact .inr ⟨req, ct, key, _, rfl, hct, hkey, Decidable.not_not.mp hlen, if_neg hlen⟩

/-- A handler of session keys rejects a request, perhaps with a line in
    the log, or stores the key it carries. -/
theorem KeyCall.handler_cases (X : Externals) (priv : PrivateKey) (call : KeyCall) :
    (∃ resp : Response, resp.Rejects ∧ (call.handler X priv = .ret resp ∨
      ∃ line, call.handler X priv = .op (.log line) fun _ => .ret resp)) ∨
    ∃ circuitID key line, call.Carries X priv circuitID key ∧ key.length = 32 ∧
      call.handler X priv = storeKey circuitID key line := by
  have hclear (label : Bytes) (r : ServerRequest) :
      (∃ resp : Response, resp.Rejects ∧ (handleKeyAs label r = .ret resp ∨
        ∃ line, handleKeyAs label r = .op (.log line) fun _ => .ret resp)) ∨
      ∃ circuitID key line, (KeyCall.exitKey r).Carries X priv circuitID key ∧ key.length = 32 ∧
        handleKeyAs label r = storeKey circuitID key line := by
    rcases handleKeyAs_cases r with ⟨resp, hresp, hrun⟩ | ⟨req, key, hreq, hkey, hlen, hrun⟩
    · exact .inl ⟨resp, hresp, .inl (hrun label)⟩
    · obtain ⟨line, hrun⟩ := hrun label
      exact .inr ⟨_, key, line, ⟨req, hreq, rfl, hkey⟩, hlen, hrun⟩
  cases call with
  | key h r => exact hclear h.nodeLabel r
  | exitKey r => exact hclear (lit "exit") r
  | setup r =>
    rcases handleSetup_cases X priv r with hrej | ⟨req, ct, key, line, hreq, hct, hkey, hlen, hrun⟩
    · exact .inl hrej
    · exact .inr ⟨_, key, line, ⟨req, ct, hreq, rfl, hct, hkey⟩, hlen, hrun⟩

/-! ## What the store holds -/

section

variable (N : Net ν) (n : ν)

/-- The request was answered with 204. -/
def Accepted (e : KeyCall × Response) : Prop := e.2.statusCode = statusNoContent

/-- An accepted request for a circuit. -/
def AcceptedFor (circuitID : Bytes) (e : KeyCall × Response) : Prop :=
  Accepted e ∧ ∃ key, e.1.Carries N.X (N.priv n) circuitID key

/-- The key of a circuit is the one its latest accepted request carried,
    and there is one exactly if some request was accepted. -/
def Holds (N : Net ν) (n : ν) (h : List (KeyCall × Response)) (keys : Bytes → Option Bytes) :
    Prop :=
  ∀ circuitID,
    (keys circuitID = none ∧ ∀ e ∈ h, ¬AcceptedFor N n circuitID e) ∨
    ∃ e after key, keys circuitID = some key ∧ Latest (AcceptedFor N n circuitID) h e after ∧
      e.1.Carries N.X (N.priv n) circuitID key ∧ key.length = 32

variable {N n}

theorem holds_nil : Holds N n [] fun _ => none := by
  intro circuitID
  exact .inl ⟨rfl, by simp⟩

/-- An entry that is no accepted request for a circuit leaves what is
    known of its key. -/
theorem Holds.snoc_other {h : List (KeyCall × Response)} {keys keys' : Bytes → Option Bytes}
    {e : KeyCall × Response} {circuitID : Bytes} (hkeys : Holds N n h keys)
    (hsame : keys' circuitID = keys circuitID) (he : ¬AcceptedFor N n circuitID e) :
    (keys' circuitID = none ∧ ∀ x ∈ h ++ [e], ¬AcceptedFor N n circuitID x) ∨
    ∃ x after key, keys' circuitID = some key ∧
      Latest (AcceptedFor N n circuitID) (h ++ [e]) x after ∧
      x.1.Carries N.X (N.priv n) circuitID key ∧ key.length = 32 := by
  rw [hsame]
  rcases hkeys circuitID with ⟨hnone, hall⟩ | ⟨x, after, key, hkey, hlatest, hcarries, hlen⟩
  · refine .inl ⟨hnone, ?_⟩
    intro x hx
    rcases List.mem_append.mp hx with hx | hx
    · exact hall x hx
    · rw [List.mem_singleton.mp hx]
      exact he
  · exact .inr ⟨x, _, key, hkey, hlatest.snoc he, hcarries, hlen⟩

namespace Holds

variable {h : List (KeyCall × Response)} {keys : Bytes → Option Bytes} {circuitID key : Bytes}

theorem length (hkeys : Holds N n h keys) (hkey : keys circuitID = some key) :
    key.length = 32 := by
  rcases hkeys circuitID with ⟨hnone, -⟩ | ⟨e, after, key', hkey', -, -, hlen⟩
  · rw [hkey] at hnone
    cases hnone
  · obtain rfl : key' = key := Option.some.inj (hkey'.symm.trans hkey)
    exact hlen

theorem eq_none_iff (hkeys : Holds N n h keys) :
    keys circuitID = none ↔ ∀ e ∈ h, ¬AcceptedFor N n circuitID e := by
  rcases hkeys circuitID with ⟨hnone, hall⟩ | ⟨e, after, key, hkey, hlatest, -, -⟩
  · exact iff_of_true hnone hall
  · apply iff_of_false
    · rw [hkey]
      exact Option.some_ne_none key
    · intro hall
      exact hall e hlatest.mem hlatest.holds

theorem eq_some_iff (hkeys : Holds N n h keys) :
    keys circuitID = some key ↔ ∃ e after, Latest (AcceptedFor N n circuitID) h e after ∧
      e.1.Carries N.X (N.priv n) circuitID key := by
  rcases hkeys circuitID with ⟨hnone, hall⟩ | ⟨e, after, key', hkey, hlatest, hcarries, -⟩
  · rw [hnone]
    apply iff_of_false (by simp)
    rintro ⟨e, after, hlatest, -⟩
    exact hall e hlatest.mem hlatest.holds
  · rw [hkey, Option.some.injEq]
    constructor
    · rintro rfl
      exact ⟨e, after, hlatest, hcarries⟩
    · rintro ⟨e', after', hlatest', hcarries'⟩
      obtain ⟨rfl, -⟩ := hlatest.unique hlatest'
      exact (hcarries.unique hcarries').2

end Holds

end

/-! ## Runs of a node -/

section

variable {ι : Type} [DecidableEq ι] [DecidableEq ν] (N : Net ν) (n : ν)

/-- The node serves a request for some call and answers it. -/
def KeyStep (w : World ι ν) (e : KeyCall × Response) (w' : World ι ν) : Prop :=
  ∃ i, N.reliable.Returns (i, .node n) (e.1.handler N.X (N.priv n)) w e.2 w'

variable {N n} {w w' : World ι ν} {call : KeyCall} {resp : Response}

/-- What storing a key does. -/
theorem returns_storeKey {i : ι} {circuitID key line : Bytes} :
    N.reliable.Returns (i, .node n) (storeKey circuitID key line) w resp w' →
      resp = writeHeader statusNoContent ∧
      w'.keys = Function.update w.keys n (Function.update (w.keys n) circuitID (some key)) := by
  intro hrun
  unfold storeKey at hrun
  simp only [perform_eq, logPrintf_eq, op_bind, ret_bind, pure_eq, Semantics.returns_op,
    Semantics.returns_ret] at hrun
  obtain ⟨rfl, rfl⟩ := hrun
  exact ⟨rfl, rfl⟩

/-- What one request can do: an accepted one stores the 32 bytes it
    carries for its circuit, any other is rejected and stores nothing. -/
theorem KeyStep.cases (hstep : KeyStep N n w (call, resp) w') :
    (Accepted (call, resp) ∧ ∃ circuitID key, call.Carries N.X (N.priv n) circuitID key ∧
      key.length = 32 ∧
      w'.keys = Function.update w.keys n (Function.update (w.keys n) circuitID (some key))) ∨
    (resp.Rejects ∧ w'.keys = w.keys) := by
  obtain ⟨i, hrun⟩ := hstep
  rcases call.handler_cases N.X (N.priv n) with
    ⟨resp', hrej, hprog | ⟨line, hprog⟩⟩ | ⟨circuitID, key, line, hcarries, hlen, hprog⟩
  · rw [hprog] at hrun
    obtain ⟨rfl, rfl⟩ := Semantics.returns_ret.mp hrun
    exact .inr ⟨hrej, rfl⟩
  · -- a line in the log is no change to the store
    rw [hprog, Semantics.returns_op] at hrun
    obtain ⟨hresp, rfl⟩ := Semantics.returns_ret.mp hrun
    obtain rfl : resp = resp' := hresp
    exact .inr ⟨hrej, rfl⟩
  · rw [hprog] at hrun
    obtain ⟨hresp, hkeys⟩ := returns_storeKey hrun
    exact .inl ⟨congrArg Response.statusCode hresp, circuitID, key, hcarries, hlen, hkeys⟩

/-- Every request is answered. -/
theorem KeyStep.total (call : KeyCall) (w : World ι ν) (i : ι) :
    ∃ resp w', N.reliable.Returns (i, .node n) (call.handler N.X (N.priv n)) w resp w' := by
  rcases call.handler_cases N.X (N.priv n) with
    ⟨resp', -, hprog | ⟨line, hprog⟩⟩ | ⟨circuitID, key, line, -, -, hprog⟩
  · rw [hprog]
    exact ⟨_, _, .ret⟩
  · rw [hprog]
    exact ⟨_, _, .op .ret⟩
  · rw [hprog]
    exact ⟨_, _, .op (.op .ret)⟩

/-- The two `HandleKey` give the same answer and leave the same keys. -/
theorem handleKey_agree (h : Handler) (r : ServerRequest) (w : World ι ν) (i : ι) :
    ∃ resp w₁ w₂, N.reliable.Returns (i, .node n) (h.handleKey r) w resp w₁ ∧
      N.reliable.Returns (i, .node n) (ExitHandler.handleKey r) w resp w₂ ∧ w₁.keys = w₂.keys := by
  unfold Handler.handleKey ExitHandler.handleKey
  rcases handleKeyAs_cases r with ⟨resp, -, hrun⟩ | ⟨req, key, -, -, -, hrun⟩
  · rw [hrun, hrun]
    exact ⟨resp, w, w, .ret, .ret, rfl⟩
  · -- they store alike and name themselves in the log
    obtain ⟨line₁, hrun₁⟩ := hrun h.nodeLabel
    obtain ⟨line₂, hrun₂⟩ := hrun (lit "exit")
    rw [hrun₁, hrun₂]
    exact ⟨_, _, _, .op (.op .ret), .op (.op .ret), rfl⟩

/-- One more request. -/
theorem Holds.step {h : List (KeyCall × Response)} {e : KeyCall × Response}
    (hkeys : Holds N n h (w.keys n)) (hstep : KeyStep N n w e w') :
    Holds N n (h ++ [e]) (w'.keys n) := by
  obtain ⟨call, resp⟩ := e
  intro circuitID
  -- an accepted key is stored under its circuit, anything else changes nothing
  rcases hstep.cases with ⟨h204, c, key, hcarries, hlen, hstored⟩ | ⟨hrej, hstored⟩
  · rw [hstored, Function.update_self]
    by_cases hc : circuitID = c
    · subst hc
      have hfor : AcceptedFor N n circuitID (call, resp) := ⟨h204, key, hcarries⟩
      exact .inr ⟨_, [], key, Function.update_self .., .self hfor, hcarries, hlen⟩
    · -- the request is for another circuit
      apply hkeys.snoc_other (Function.update_of_ne hc ..)
      rintro ⟨-, key', hcarries'⟩
      exact hc (hcarries'.unique hcarries).1
  · rw [hstored]
    apply hkeys.snoc_other rfl
    intro hfor
    exact hrej.ne_noContent hfor.1

/-- A run of requests at a node whose store was empty. -/
theorem holds_of_run {h : List (KeyCall × Response)} (hempty : w.keys n = fun _ => none)
    (hrun : Steps (KeyStep N n) w h w') : Holds N n h (w'.keys n) := by
  apply hrun.induct (I := fun h v => Holds N n h (v.keys n))
  · rw [hempty]
    exact holds_nil
  · intro h v e v' _ hkeys hstep
    exact hkeys.step hstep

end

/-! ## Creating a cipher -/

section

variable {X : Externals} {key : Bytes}

/-- How the error of a failed `aes.NewCipher` in `Encrypt` or `Decrypt`
    begins, under the text its caller puts in front of it. -/
def cipherErrors : List Bytes :=
  [lit "create cipher: ", lit "decrypt onion layer: create cipher: ",
    lit "decrypt exit layer: create cipher: ", lit "internal error: encrypt response: create cipher: "]

def isCipherError (err : Bytes) : Bool := cipherErrors.any fun text => text.isPrefixOf err

/-- A key of 32 bytes makes a cipher, so decryption fails for other
    reasons. -/
theorem decrypt_error {ct err : Bytes} (hkey : key.length = 32) (h : decrypt X key ct = .error err) :
    err = lit "ciphertext too short" ∨
      err = wrap "decrypt" (lit "cipher: message authentication failed") := by
  unfold decrypt at h
  rw [newCipher_of_length hkey] at h
  dsimp only at h
  by_cases hshort : ct.length < nonceSize
  · rw [if_pos hshort] at h
    exact .inl (Except.error.inj h).symm
  · rw [if_neg hshort] at h
    cases hopen : X.gcmOpen key (ct.take nonceSize) (ct.drop nonceSize) with
    | none =>
      rw [hopen] at h
      exact .inr (Except.error.inj h).symm
    | some plaintext =>
      rw [hopen] at h
      cases h

theorem unwrapLayer_error {ct err : Bytes} (hkey : key.length = 32)
    (h : unwrapLayer X key ct = .error err) : isCipherError err = false := by
  unfold unwrapLayer at h
  cases hdec : decrypt X key ct with
  | error e =>
    rw [hdec] at h
    obtain rfl : wrap "decrypt onion layer" e = err := Except.error.inj h
    rcases decrypt_error hkey hdec with rfl | rfl
    · decide +kernel
    · decide +kernel
  | ok plaintext =>
    rw [hdec] at h
    dsimp only at h
    cases hlayer : unmarshal Layer.fields Layer.zero plaintext with
    | none =>
      rw [hlayer] at h
      obtain rfl : wrap "decode onion layer" _ = err := Except.error.inj h
      rfl
    | some layer =>
      rw [hlayer] at h
      dsimp only at h
      by_cases hempty : layer.nextHop = [] ∨ layer.payload = []
      · rw [if_pos hempty] at h
        obtain rfl := Except.error.inj h
        rfl
      · rw [if_neg hempty] at h
        cases h

theorem unwrapExitLayer_error {ct err : Bytes} (hkey : key.length = 32)
    (h : unwrapExitLayer X key ct = .error err) : isCipherError err = false := by
  unfold unwrapExitLayer at h
  cases hdec : decrypt X key ct with
  | error e =>
    rw [hdec] at h
    obtain rfl : wrap "decrypt exit layer" e = err := Except.error.inj h
    rcases decrypt_error hkey hdec with rfl | rfl
    · decide +kernel
    · decide +kernel
  | ok plaintext =>
    rw [hdec] at h
    dsimp only at h
    cases hlayer : unmarshal ExitLayer.fields ExitLayer.zero plaintext with
    | none =>
      rw [hlayer] at h
      obtain rfl : wrap "decode exit layer" _ = err := Except.error.inj h
      rfl
    | some layer =>
      rw [hlayer] at h
      dsimp only at h
      by_cases hempty : layer.url = [] ∨ layer.method = []
      · rw [if_pos hempty] at h
        obtain rfl := Except.error.inj h
        rfl
      · rw [if_neg hempty] at h
        cases h

/-- Encryption under a key of 32 bytes does not fail. -/
theorem all_encrypt_ok (hkey : key.length = 32) (plaintext : Bytes) :
    (encrypt X key plaintext).All (fun _ => True) (fun _ => True) fun r => ∃ ct, r = .ok ct := by
  unfold encrypt
  rw [newCipher_of_length hkey]
  exact ⟨trivial, fun nonce => ⟨_, rfl⟩⟩

/-- No error of the exit's execution comes from the creation of a cipher. -/
theorem all_executeExitPayload_error (hkey : key.length = 32) (payload : Bytes) :
    (executeExitPayload X key payload).All (fun _ => True) (fun _ => True)
      fun r => ∀ err, r = .error err → isCipherError err = false := by
  unfold executeExitPayload
  cases hlayer : unwrapExitLayer X key payload with
  | error err =>
    intro err' h
    obtain rfl := Except.error.inj h
    exact unwrapExitLayer_error hkey hlayer
  | ok layer =>
    apply all_bind (T := fun r : Result ExitResponse => ∀ err, r = .error err →
      isCipherError err = false)
    · -- the destination's error texts begin with words of their own
      unfold executeExitRequest
      cases X.newRequest layer.method layer.url with
      | error err =>
        intro err' h
        obtain rfl := Except.error.inj h
        rfl
      | ok _ =>
        refine ⟨trivial, fun order => ⟨trivial, fun out => ?_⟩⟩
        cases out with
        | unreachable err =>
          intro err' h
          obtain rfl := Except.error.inj h
          rfl
        | broken err =>
          intro err' h
          obtain rfl := Except.error.inj h
          rfl
        | answered resp =>
          intro err' h
          cases h
    · intro r hr
      cases r with
      | error err =>
        intro err' h
        exact hr err' (congrArg Except.error (Except.error.inj h))
      | ok resp =>
        apply all_bind (T := fun r : Result Bytes => ∃ ct, r = .ok ct)
        · unfold encryptExitResponse
          apply all_bind (all_encrypt_ok hkey _)
          rintro _ ⟨ct, rfl⟩
          exact ⟨ct, rfl⟩
        · rintro _ ⟨ct, rfl⟩ err h
          cases h

/-- With a key of 32 bytes the answer of the next hop is passed on, or
    the failure is that of the next hop. -/
theorem all_returnPath_answer (hkey : key.length = 32) (h : Handler) (nextHop : Bytes)
    (resp : Result Response) : (h.returnPath X key nextHop resp).All (fun _ => True)
      (fun _ => True) fun resp => resp.statusCode ≠ statusInternalServerError := by
  have h200 : statusOK ≠ statusInternalServerError := by decide
  have h502 : statusBadGateway ≠ statusInternalServerError := by decide
  unfold Handler.returnPath
  cases resp with
  | error err => exact ⟨trivial, fun _ => h502⟩
  | ok resp =>
    dsimp only
    by_cases hstatus : resp.statusCode ≠ statusOK
    · rw [if_pos hstatus]
      exact ⟨trivial, fun _ => h502⟩
    rw [if_neg hstatus]
    cases decodeStream OnionResponse.fields OnionResponse.zero resp.body with
    | none => exact ⟨trivial, fun _ => h502⟩
    | some nextResp =>
      -- the branch that answers 500 needs an error of `Encrypt`
      apply all_bind (all_encrypt_ok hkey _)
      rintro _ ⟨ct, rfl⟩
      exact h200

/-- After the look-up of a key of 32 bytes, a forwarding node does not
    fail to encrypt an answer. -/
theorem all_peel_answer (hkey : key.length = 32) (h : Handler) (prevHop : Bytes)
    (req : OnionRequest) : (h.peel X prevHop req key).All (fun _ => True) (fun _ => True)
      fun resp => resp.statusCode ≠ statusInternalServerError := by
  have h200 : statusOK ≠ statusInternalServerError := by decide
  have h400 : statusBadRequest ≠ statusInternalServerError := by decide
  unfold Handler.peel
  cases unwrapLayer X key req.payload with
  | error err =>
    dsimp only
    by_cases hdirect : h.allowDirectExit = true
    · rw [if_pos hdirect]
      apply all_bind (all_executeExitPayload_error hkey _)
      intro r _
      cases r with
      | error err => exact ⟨trivial, fun _ => h400⟩
      | ok done => exact ⟨trivial, fun _ => h200⟩
    · rw [if_neg hdirect]
      exact ⟨trivial, fun _ => h400⟩
  | ok layer =>
    refine ⟨trivial, fun _ => ⟨trivial, fun resp => ?_⟩⟩
    show All _ _ _ (acceptResponse (nextHopURL layer.nextHop) resp >>= fun _ =>
      h.returnPath X key layer.nextHop resp)
    apply all_bind (T := fun _ => True)
    · cases resp with
      | error err => trivial
      | ok resp => exact ⟨trivial, fun _ => trivial⟩
    · intro _ _
      exact all_returnPath_answer hkey h layer.nextHop resp

end

/-! ## The node over whole runs -/

section

variable {ι : Type} [DecidableEq ι] [DecidableEq ν] {N : Net ν} {n : ν} {w w' : World ι ν}

/-- No use a handler of onions makes of the key ends in an error of the
    creation of a cipher, in whatever world it runs. -/
structure CiphersMade (ι : Type) [DecidableEq ι] (N : Net ν) (n : ν) (key : Bytes) : Prop where
  decrypt : ∀ ct err, HopVault.decrypt N.X key ct = .error err → isCipherError err = false
  unwrapLayer : ∀ ct err, HopVault.unwrapLayer N.X key ct = .error err → isCipherError err = false
  unwrapExitLayer : ∀ ct err, HopVault.unwrapExitLayer N.X key ct = .error err →
    isCipherError err = false
  encrypt : ∀ (i : ι) plaintext v r v',
    N.reliable.Returns (i, .node n) (HopVault.encrypt N.X key plaintext) v r v' → ∃ ct, r = .ok ct
  executeExitPayload : ∀ (i : ι) payload v err v',
    N.reliable.Returns (i, .node n) (HopVault.executeExitPayload N.X key payload) v (.error err) v' →
      isCipherError err = false

theorem ciphersMade_of_length {key : Bytes} (hkey : key.length = 32) :
    CiphersMade ι N n key where
  decrypt ct err h := by
    rcases decrypt_error hkey h with rfl | rfl
    · decide +kernel
    · decide +kernel
  unwrapLayer ct err h := unwrapLayer_error hkey h
  unwrapExitLayer ct err h := unwrapExitLayer_error hkey h
  encrypt i plaintext v r v' hrun := hrun.of_all (all_encrypt_ok hkey plaintext)
  executeExitPayload i payload v err v' hrun :=
    hrun.of_all (all_executeExitPayload_error hkey payload) err rfl

/-- A line in the log and an error. -/
theorem all_refuse (h : Handler) (line : Bytes) {message : String} {code : Int}
    (hcode : code ≠ statusInternalServerError) :
    (h.log line >>= fun _ => return httpError message code : Go Response).All (fun _ => True)
      (fun _ => True) fun resp => resp.statusCode ≠ statusInternalServerError :=
  ⟨trivial, fun _ => hcode⟩

/-- A forwarding node all of whose keys have 32 bytes answers no onion
    with an internal error. -/
theorem handleOnion_answer (hkeys : ∀ c key, w.keys n c = some key → key.length = 32)
    {h : Handler} {r : ServerRequest} {i : ι} {resp : Response}
    (hrun : N.reliable.Returns (i, .node n) (h.handleOnion N.X r) w resp w') :
    resp.statusCode ≠ statusInternalServerError := by
  have h400 : statusBadRequest ≠ statusInternalServerError := by decide
  have h401 : statusUnauthorized ≠ statusInternalServerError := by decide
  have h405 : statusMethodNotAllowed ≠ statusInternalServerError := by decide
  unfold Handler.handleOnion at hrun
  by_cases hpost : r.method ≠ methodPost
  · rw [if_pos hpost] at hrun
    obtain ⟨rfl, -⟩ := Semantics.returns_ret.mp hrun
    exact h405
  rw [if_neg hpost] at hrun
  dsimp only at hrun
  cases hreq : decodeStream OnionRequest.fields OnionRequest.zero r.body with
  | none =>
    rw [hreq] at hrun
    exact hrun.of_all (all_refuse h _ h400)
  | some req =>
    rw [hreq] at hrun
    dsimp only at hrun
    by_cases hempty : req.circuitID = [] ∨ req.payload = []
    · rw [if_pos hempty] at hrun
      exact hrun.of_all (all_refuse h _ h400)
    · rw [if_neg hempty, perform_eq, op_bind, Semantics.returns_op] at hrun
      cases hget : w.keys n req.circuitID with
      | none =>
        have hact : (N.reliable.act (i, .node n) (.keysGet req.circuitID) w).1 = none := hget
        rw [hact] at hrun
        exact hrun.of_all (all_refuse h _ h401)
      | some key =>
        have hact : (N.reliable.act (i, .node n) (.keysGet req.circuitID) w).1 = some key := hget
        rw [hact] at hrun
        exact hrun.of_all (all_peel_answer (hkeys _ _ hget) h r.remoteAddr req)

/-- After any sequence of requests to `/key` and `/setup` at a node whose
    store was empty: every key has 32 bytes; `Get` returns the key of the
    latest accepted request for a circuit, and nothing exactly if none was
    accepted; a further request is answered, and stores the key it carries
    for its circuit alone, or is rejected and stores nothing; the two
    `HandleKey` decide and store alike; and neither `HandleOnion` meets an
    error of the creation of a cipher. -/
theorem key_store_of_run {h : List (KeyCall × Response)} (hempty : w.keys n = fun _ => none)
    (hrun : Steps (KeyStep N n) w h w') :
    (∀ c key, w'.keysGet c (.node n) = some key → key.length = 32) ∧
    (∀ c key, w'.keysGet c (.node n) = some key ↔ ∃ e after,
      Latest (AcceptedFor N n c) h e after ∧ e.1.Carries N.X (N.priv n) c key) ∧
    (∀ c, w'.keysGet c (.node n) = none ↔ ∀ e ∈ h, ¬AcceptedFor N n c e) ∧
    (∀ (call : KeyCall) i, ∃ resp w'',
      N.reliable.Returns (i, .node n) (call.handler N.X (N.priv n)) w' resp w'') ∧
    (∀ call resp w'', KeyStep N n w' (call, resp) w'' →
      (Accepted (call, resp) ∧ ∃ c key, call.Carries N.X (N.priv n) c key ∧
        w''.keysGet c (.node n) = some key ∧
        ∀ c', c' ≠ c → w''.keysGet c' (.node n) = w'.keysGet c' (.node n)) ∨
      (resp.Rejects ∧ w''.keys = w'.keys)) ∧
    (∀ (hd : Handler) r i resp₁ w₁ resp₂ w₂,
      N.reliable.Returns (i, .node n) (hd.handleKey r) w' resp₁ w₁ →
      N.reliable.Returns (i, .node n) (ExitHandler.handleKey r) w' resp₂ w₂ →
        resp₁ = resp₂ ∧ w₁.keys = w₂.keys) ∧
    (∀ c key, w'.keysGet c (.node n) = some key → CiphersMade ι N n key) ∧
    ∀ (hd : Handler) r i resp w'',
      N.reliable.Returns (i, .node n) (hd.handleOnion N.X r) w' resp w'' →
        resp.statusCode ≠ statusInternalServerError := by
  have hkeys : Holds N n h (w'.keys n) := holds_of_run hempty hrun
  refine ⟨fun _ _ hget => hkeys.length hget, fun _ _ => hkeys.eq_some_iff,
    fun _ => hkeys.eq_none_iff, fun call i => KeyStep.total call w' i, ?_, ?_,
    fun _ _ hget => ciphersMade_of_length (hkeys.length hget),
    fun _ _ _ _ _ honion => handleOnion_answer (fun _ _ hget => hkeys.length hget) honion⟩
  · intro call resp w'' hstep
    rcases hstep.cases with ⟨h204, c, key, hcarries, -, hstored⟩ | hrej
    · refine .inl ⟨h204, c, key, hcarries, ?_, ?_⟩
      · show w''.keys n c = some key
        rw [hstored, Function.update_self, Function.update_self]
      · intro c' hc
        show w''.keys n c' = w'.keys n c'
        rw [hstored, Function.update_self, Function.update_of_ne hc]
    · exact .inr hrej
  · intro hd r i resp₁ w₁ resp₂ w₂ hrun₁ hrun₂
    obtain ⟨resp, v₁, v₂, hv₁, hv₂, hsame⟩ := handleKey_agree hd r w' i
    obtain ⟨rfl, rfl⟩ := hv₁.unique hrun₁
    obtain ⟨rfl, rfl⟩ := hv₂.unique hrun₂
    exact ⟨rfl, hsame⟩

end

/-- A key for the circuit `c1`. -/
def Sample.keyRequest : ServerRequest :=
  ⟨methodPost, lit "c", (KeyRequest.json ⟨lit "c1", Base64.encode (List.replicate 32 7)⟩).encode⟩

theorem key_store_of_run_sample : ∃ w', KeyStep (ι := Unit) Sample.net .guard Sample.start
      (.exitKey Sample.keyRequest, writeHeader statusNoContent) w' ∧
    w'.keysGet (lit "c1") (.node .guard) = some (List.replicate 32 7) := by
  have hexec : ((Sample.net.reliable.exec 1 ((), .node .guard)
      (ExitHandler.handleKey Sample.keyRequest) Sample.start).map Prod.fst) =
        some (writeHeader statusNoContent) := by
    decide +kernel
  obtain ⟨⟨resp, w'⟩, hret, rfl⟩ := Option.map_eq_some_iff.mp hexec
  have hstep : KeyStep Sample.net .guard Sample.start
      (.exitKey Sample.keyRequest, writeHeader statusNoContent) w' :=
    ⟨(), Semantics.returns_of_exec hret⟩
  have hcarries : (KeyCall.exitKey Sample.keyRequest).Carries Sample.externals (Sample.host .guard)
      (lit "c1") (List.replicate 32 7) := by
    refine ⟨⟨lit "c1", Base64.encode (List.replicate 32 7)⟩, ?_, rfl, ?_⟩
    · decide +kernel
    · decide +kernel
  refine ⟨w', hstep, ((key_store_of_run rfl (.single hstep)).2.1 _ _).mpr ?_⟩
  exact ⟨_, [], .self (h := []) ⟨rfl, _, hcarries⟩, hcarries⟩

end HopVault
