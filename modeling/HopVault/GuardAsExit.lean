import HopVault.DirectExit

/-! # The guard as exit

    A guard with direct exit and the exit node run the same
    `ExecuteExitPayload`, but make different answers of its failures. -/

namespace HopVault

open Framework Framework.Json Framework.Prog Framework.Utf8

section

variable {X : Externals} {h : Handler} {r : ServerRequest} {req : OnionRequest} {τ : List (Interaction Effects)}
  {key : Bytes} {resp : Response}

/-! ## The same answer -/

/-- Every exchange with a destination goes this way. -/
def Destination (out : DestOutcome) (τ : List (Interaction Effects)) : Prop :=
  ∀ x, (∃ dest, .op (.clientDo dest) x ∈ τ) → x = out

variable (X) in
/-- An answer to an onion that opens to an exit response under the key. -/
def Opens (key : Bytes) (resp : Response) (answer : ExitResponse) : Prop :=
  ∃ ct plaintext, decodeStream OnionResponse.fields .zero resp.body = some ⟨ct⟩ ∧
    decrypt X key ct = .ok plaintext ∧ unmarshal ExitResponse.fields .zero plaintext = some answer

variable (X) in
/-- The same status, and where it is 200 the same exit response inside. -/
structure SameAnswer (key : Bytes) (resp₁ resp₂ : Response) : Prop where
  status : resp₁.statusCode = resp₂.statusCode
  answer : resp₁.statusCode = statusOK → ∃ answer, Opens X key resp₁ answer ∧ Opens X key resp₂ answer

variable (X) in
/-- A request is sent for the payload and fails, and what the transport
    says is taken for a failure of the transport. -/
def FailsPlainly (key payload : Bytes) (out : DestOutcome) : Prop :=
  ¬Rejected X key payload ∧ ∃ err, (out = .unreachable err ∨ out = .broken err) ∧ Unambiguous err

/-- An encrypted exit response opens. -/
theorem opens_onionAnswer (hX : X.LawfulAEAD) {nonce : Bytes} (hkey : newCipher key = .ok ())
    (hnonce : nonce.length = nonceSize) (answer : ExitResponse) :
    Opens X key (onionAnswer (nonce ++ X.gcmSeal key nonce answer.json.encode)) answer.coerced :=
  ⟨_, _, decode_onionAnswer _, decrypt_sealed hX hkey hnonce _, unmarshal_exitResponse answer⟩

/-- How the execution of a payload ends, as far as its answer goes. -/
inductive Verdict (X : Externals) (key payload : Bytes) (out : DestOutcome) :
    Result (Bytes × ExitLayer) → Prop
  | rejected {err : Bytes} (hrejected : Rejected X key payload)
      (hstatus : (ExitHandler.failureAnswer err).statusCode = statusBadRequest) :
      Verdict X key payload out (.error err)
  | failed {err cause : Bytes} (hnot : ¬Rejected X key payload)
      (hout : out = .unreachable cause ∨ out = .broken cause)
      (hstatus : (ExitHandler.failureAnswer err).statusCode = statusBadGateway ↔ Unambiguous cause) :
      Verdict X key payload out (.error err)
  | answered {ct : Bytes} {layer : ExitLayer} {resp : DestResponse} (hnot : ¬Rejected X key payload)
      (hout : out = .answered resp)
      (hopens : Opens X key (onionAnswer ct) (exitResponse resp).coerced) :
      Verdict X key payload out (.ok (ct, layer))

/-- Each way through the exit has its verdict. -/
theorem ExitPath.verdict (hX : X.LawfulAEAD) {payload : Bytes} {out : DestOutcome}
    {result : Result (Bytes × ExitLayer)} (hexit : ExitPath X key payload τ result)
    (hdest : Destination out τ) : Verdict X key payload out result := by
  cases hexit with
  | unread hlayer =>
    exact .rejected (.inl ⟨_, hlayer⟩) (failureAnswer_early (.inr (contains_of_unread hlayer)))
  | unbuilt hlayer hbuild =>
    exact .rejected (.inr ⟨_, _, hlayer, hbuild⟩)
      (failureAnswer_early (.inl (contains_of_unbuilt _)))
  | unsent hlayer hbuild order =>
    exact .failed (not_rejected hlayer hbuild) (.inl (hdest _ ⟨_, .tail _ (.head _)⟩).symm)
      (failureAnswer_transport (.inl rfl) _)
  | unfinished hlayer hbuild order =>
    exact .failed (not_rejected hlayer hbuild) (.inr (hdest _ ⟨_, .tail _ (.head _)⟩).symm)
      (failureAnswer_transport (.inr rfl) _)
  | answered hlayer hbuild order nonce =>
    exact .answered (not_rejected hlayer hbuild) (hdest _ ⟨_, .tail _ (.head _)⟩).symm
      (opens_onionAnswer hX (newCipher_of_unwrapExitLayer hlayer) nonce.2 _)

/-- The two answers to a payload, by its verdicts. -/
theorem sameAnswer_of_verdict {payload : Bytes} {out : DestOutcome}
    {guard exit : Result (Bytes × ExitLayer)} (hguard : Verdict X key payload out guard)
    (hexit : Verdict X key payload out exit) :
    SameAnswer X key (directAnswer guard) (exitAnswer exit) ↔ ¬FailsPlainly X key payload out := by
  -- the same verdict at both, as it depends on the payload and the destination
  cases hguard with
  | rejected hrejected _ =>
    cases hexit with
    | rejected _ hstatus =>
      refine iff_of_true ⟨hstatus.symm, ?_⟩ fun hfails => hfails.1 hrejected
      intro hok
      cases hok
    | failed hnot _ _ => exact absurd hrejected hnot
    | answered hnot _ _ => exact absurd hrejected hnot
  | failed hnot hcause _ =>
    cases hexit with
    | rejected hrejected _ => exact absurd hrejected hnot
    | @failed err cause _ hcause' hstatus =>
      constructor
      · intro hsame hfails
        obtain ⟨-, plain, hplain, hclear⟩ := hfails
        have hsaid : cause = plain := by
          rcases hcause' with rfl | rfl <;> rcases hplain with hplain | hplain <;> cases hplain <;> rfl
        have h502 : (exitAnswer (.error err)).statusCode = statusBadGateway :=
          hstatus.mpr (hsaid ▸ hclear)
        rw [← hsame.status] at h502
        cases h502
      · intro hnone
        refine ⟨?_, ?_⟩
        · rcases failureAnswer_status err with h400 | h502
          · exact h400.symm
          · exact absurd ⟨hnot, cause, hcause', hstatus.mp h502⟩ hnone
        · intro hok
          cases hok
    | answered _ hout _ => rcases hcause with rfl | rfl <;> cases hout
  | answered hnot hout hopens =>
    cases hexit with
    | rejected hrejected _ => exact absurd hrejected hnot
    | failed _ hcause _ => rcases hcause with rfl | rfl <;> cases hout
    | answered _ hout' hopens' =>
      rw [hout] at hout'
      cases hout'
      refine iff_of_true ⟨rfl, fun _ => ⟨_, hopens, hopens'⟩⟩ ?_
      rintro ⟨-, cause, hcause, -⟩
      rcases hcause with rfl | rfl <;> cases hout

/-- An empty payload opens with no key. -/
theorem rejected_nil : Rejected X key [] := by
  left
  cases hlayer : unwrapExitLayer X key [] with
  | error err => exact ⟨err, rfl⟩
  | ok layer =>
    obtain ⟨plaintext, hdec, -⟩ := (unwrapExitLayer_eq_ok.mp hlayer).reads
    exact absurd rfl (ne_nil_of_decrypt hdec)

/-- A POST of an onion for a circuit. -/
structure Posts (r : ServerRequest) (req : OnionRequest) : Prop where
  post : r.method = methodPost
  body : decodeStream OnionRequest.fields .zero r.body = some req
  circuitID : req.circuitID ≠ []

/-- The key store holds the key for the circuit. -/
def KeyFound (req : OnionRequest) (key : Bytes) (τ : List (Interaction Effects)) : Prop :=
  ∀ x, .op (.keysGet req.circuitID) x ∈ τ → x = some key

/-- An onion without a payload is refused by the guard. -/
theorem path_handleOnion_empty (hr : Posts r req) (hempty : req.payload = [])
    (hpath : Path (h.handleOnion X r) τ resp) :
    resp = httpError "circuitId and payload are required" statusBadRequest := by
  have hpost : ¬r.method ≠ methodPost := fun h => h hr.post
  simp only [Handler.handleOnion, if_neg hpost, hr.body, hempty, or_true, if_true] at hpath
  obtain ⟨_, τ', rfl, hret⟩ := path_op.mp hpath
  exact (path_ret.mp hret).2

/-- And by the exit. -/
theorem path_exitOnion_empty (hr : Posts r req) (hempty : req.payload = [])
    (hpath : Path (ExitHandler.handleOnion X r) τ resp) :
    resp = httpError "circuitId and payload are required" statusBadRequest := by
  have hpost : ¬r.method ≠ methodPost := fun h => h hr.post
  simp only [ExitHandler.handleOnion, if_neg hpost, hr.body, hempty, or_true, if_true] at hpath
  exact (path_ret.mp hpath).2

/-- Any other onion takes a key look-up, which finds the key. -/
theorem path_keysGet {k : Option Bytes → Go Response}
    (hpath : Path (.op (S := Effects) (.keysGet req.circuitID) k) τ resp) (hkey : KeyFound req key τ) :
    ∃ τ', τ = .op (.keysGet req.circuitID) (some key) :: τ' := by
  obtain ⟨x, τ', rfl, -⟩ := path_op.mp hpath
  rw [hkey x (.head _)]
  exact ⟨τ', rfl⟩

/-- It is the first thing the guard does. -/
theorem path_handleOnion_get (hr : Asks r req) (hpath : Path (h.handleOnion X r) τ resp)
    (hkey : KeyFound req key τ) : ∃ τ', τ = .op (.keysGet req.circuitID) (some key) :: τ' := by
  have hpost : ¬r.method ≠ methodPost := fun h => h hr.post
  have hne : ¬(req.circuitID = [] ∨ req.payload = []) := fun h => h.elim hr.circuitID hr.payload
  simp only [Handler.handleOnion, if_neg hpost, hr.body, if_neg hne, perform_eq, op_bind] at hpath
  exact path_keysGet hpath hkey

/-- And the exit. -/
theorem path_exitOnion_get (hr : Asks r req) (hpath : Path (ExitHandler.handleOnion X r) τ resp)
    (hkey : KeyFound req key τ) : ∃ τ', τ = .op (.keysGet req.circuitID) (some key) :: τ' := by
  have hpost : ¬r.method ≠ methodPost := fun h => h hr.post
  have hne : ¬(req.circuitID = [] ∨ req.payload = []) := fun h => h.elim hr.circuitID hr.payload
  simp only [ExitHandler.handleOnion, if_neg hpost, hr.body, if_neg hne, perform_eq, op_bind] at hpath
  exact path_keysGet hpath hkey

/-- **The guard as exit**: to a payload that is not for forwarding, a guard
    with direct exit and the exit node with the same key give the same
    answer exactly if the destination does not fail in a way that the exit
    node reports as the destination's. -/
theorem guard_answers_as_exit (hX : X.LawfulAEAD) (hdirect : h.allowDirectExit = true)
    {r₁ r₂ : ServerRequest} (hr₁ : Posts r₁ req) (hr₂ : Posts r₂ req) {err : Bytes}
    (hlayer : unwrapLayer X key req.payload = .error err)
    {τ₁ τ₂ : List (Interaction Effects)} {resp₁ resp₂ : Response} {out : DestOutcome}
    (hguard : Path (h.handleOnion X r₁) τ₁ resp₁) (hkey₁ : KeyFound req key τ₁)
    (hdest₁ : Destination out τ₁) (hexit : Path (ExitHandler.handleOnion X r₂) τ₂ resp₂)
    (hkey₂ : KeyFound req key τ₂) (hdest₂ : Destination out τ₂) :
    SameAnswer X key resp₁ resp₂ ↔ ¬FailsPlainly X key req.payload out := by
  -- without a payload both refuse the request before they look at it
  by_cases hempty : req.payload = []
  · rw [path_handleOnion_empty hr₁ hempty hguard, path_exitOnion_empty hr₂ hempty hexit, hempty]
    refine iff_of_true ⟨rfl, ?_⟩ fun hfails => hfails.1 rejected_nil
    intro hok
    cases hok
  · have hask₁ : Asks r₁ req := ⟨hr₁.post, hr₁.body, hr₁.circuitID, hempty⟩
    have hask₂ : Asks r₂ req := ⟨hr₂.post, hr₂.body, hr₂.circuitID, hempty⟩
    obtain ⟨τ₁, rfl⟩ := path_handleOnion_get hask₁ hguard hkey₁
    obtain ⟨τ₂, rfl⟩ := path_exitOnion_get hask₂ hexit hkey₂
    obtain ⟨τ₁', guard, hpath₁, rfl, rfl⟩ :=
      (path_direct hdirect hlayer).mp ((path_handleOnion hask₁).mp hguard)
    obtain ⟨τ₂', exit, hpath₂, rfl, rfl⟩ := (path_exitOnion hask₂).mp hexit
    -- both have executed the payload, and the destination did the same
    have hv₁ := hpath₁.verdict hX fun x ⟨dest, hx⟩ =>
      hdest₁ x ⟨dest, .tail _ (List.mem_append_left _ hx)⟩
    have hv₂ := hpath₂.verdict hX fun x ⟨dest, hx⟩ =>
      hdest₂ x ⟨dest, .tail _ (List.mem_append_left _ hx)⟩
    exact sameAnswer_of_verdict hv₁ hv₂

end

namespace Sample

theorem posts {payload : Bytes} : Posts (request payload) ⟨lit "c1", payload⟩ := by
  constructor
  · rfl
  · rw [request, decode_onionRequest]
    have hid : toValid (lit "c1") = lit "c1" := by decide +kernel
    rw [hid]
  · show lit "c1" ≠ []
    decide

/-- Neither the look-up before nor the line in the log after is an exchange
    with the destination. -/
theorem keyFound_around {τ : List (Interaction Effects)} {req : OnionRequest} (line : Bytes)
    (h : KeyFound req keys.guardKey τ) : KeyFound req keys.guardKey
      (.op (.keysGet req.circuitID) (some keys.guardKey) :: (τ ++ [.op (.log line) ()])) := by
  intro x hx
  rcases List.mem_cons.mp hx with hx | hx
  · cases hx
    rfl
  · rcases List.mem_append.mp hx with hx | hx
    · exact h x hx
    · simp at hx

theorem destination_around {τ : List (Interaction Effects)} {c : Bytes} {found : Option Bytes}
    {out : DestOutcome} (line : Bytes) (h : Destination out τ) : Destination out
      (.op (.keysGet c) found :: (τ ++ [.op (.log line) ()])) := by
  rintro x ⟨dest, hx⟩
  rcases List.mem_cons.mp hx with hx | hx
  · cases hx
  · rcases List.mem_append.mp hx with hx | hx
    · exact h x ⟨dest, hx⟩
    · simp at hx

/-- A run of a handler for the onion with this answer, in which the
    destination does this. -/
def Runs (p : Go Response) (dest : DestOutcome) (resp : Response) : Prop :=
  ∃ τ, Path p τ resp ∧ KeyFound ⟨lit "c1", onion⟩ keys.guardKey τ ∧ Destination dest τ

/-- Guard and exit go the same way. -/
theorem runs_both (dest : DestOutcome) {τ : List (Interaction Effects)}
    {out : Result (Bytes × ExitLayer)} (hexit : ExitPath externals keys.guardKey onion τ out)
    (hkey : KeyFound ⟨lit "c1", onion⟩ keys.guardKey τ) (hdest : Destination dest τ) :
    Runs (guardHandler.handleOnion externals (request onion)) dest (directAnswer out) ∧
    Runs (ExitHandler.handleOnion externals (request onion)) dest (exitAnswer out) := by
  obtain ⟨why, hlayer⟩ := unwrapLayer_onion
  constructor
  · exact ⟨_, (path_handleOnion (asks sealed_ne_nil)).mpr ((path_direct rfl hlayer).mpr
      ⟨_, _, hexit, rfl, rfl⟩), keyFound_around _ hkey, destination_around _ hdest⟩
  · exact ⟨_, (path_exitOnion (asks sealed_ne_nil)).mpr ⟨_, _, hexit, rfl, rfl⟩,
      keyFound_around _ hkey, destination_around _ hdest⟩

/-- The way through the exit when the destination answers. -/
theorem exitPath_answered : ∃ τ answer, ExitPath externals keys.guardKey onion τ (.ok answer) ∧
    KeyFound ⟨lit "c1", onion⟩ keys.guardKey τ ∧ Destination (.answered response) τ := by
  refine ⟨_, _, @ExitPath.answered _ _ _ layer response
    (unwrapExitLayer_eq rfl (by decide +kernel) (by decide) (by decide)) rfl
    ⟨layer.headers.entries, .refl _⟩ ⟨List.replicate nonceSize 0, List.length_replicate⟩, ?_, ?_⟩
  · intro x hx
    simp at hx
  · rintro x ⟨dest, hx⟩
    simp at hx
    exact hx.2

end Sample

/-- They give the same answer when the destination gives one. -/
theorem guard_answers_as_exit_sample : ∃ resp₁ resp₂,
    Sample.Runs (Sample.guardHandler.handleOnion Sample.externals (Sample.request Sample.onion))
      (.answered Sample.response) resp₁ ∧
    Sample.Runs (ExitHandler.handleOnion Sample.externals (Sample.request Sample.onion))
      (.answered Sample.response) resp₂ ∧
    SameAnswer Sample.externals Sample.keys.guardKey resp₁ resp₂ := by
  obtain ⟨why, hlayer⟩ := Sample.unwrapLayer_onion
  obtain ⟨τ, answer, hexit, hkey, hdest⟩ := Sample.exitPath_answered
  obtain ⟨hguard, hnode⟩ := Sample.runs_both _ hexit hkey hdest
  obtain ⟨τ₁, hpath₁, hkey₁, hdest₁⟩ := hguard
  obtain ⟨τ₂, hpath₂, hkey₂, hdest₂⟩ := hnode
  refine ⟨_, _, ⟨τ₁, hpath₁, hkey₁, hdest₁⟩, ⟨τ₂, hpath₂, hkey₂, hdest₂⟩,
    (guard_answers_as_exit Sample.lawfulAEAD rfl Sample.posts Sample.posts hlayer hpath₁ hkey₁ hdest₁
      hpath₂ hkey₂ hdest₂).mpr ?_⟩
  rintro ⟨-, err, herr, -⟩
  rcases herr with herr | herr <;> cases herr

/-- When nobody listens at the destination the guard answers 400, and the
    exit 502. -/
theorem guard_answers_unlike_exit : ∃ resp₁ resp₂,
    Sample.Runs (Sample.guardHandler.handleOnion Sample.externals (Sample.request Sample.onion))
      (.unreachable (lit "connection refused")) resp₁ ∧
    Sample.Runs (ExitHandler.handleOnion Sample.externals (Sample.request Sample.onion))
      (.unreachable (lit "connection refused")) resp₂ ∧
    resp₁.statusCode = statusBadRequest ∧ resp₂.statusCode = statusBadGateway := by
  obtain ⟨hguard, hnode⟩ := Sample.runs_both (.unreachable (lit "connection refused"))
    (Sample.exitPath_onion (lit "connection refused")) (by
      intro x hx
      simp at hx) (by
      rintro x ⟨dest, hx⟩
      simp at hx
      exact hx.2)
  refine ⟨_, _, hguard, hnode, rfl, ?_⟩
  decide +kernel

end HopVault
