import HopVault.Onion.Codec
import HopVault.Footprint
import HopVault.Sample
import HopVault.Framework.Path

/-! # The ways through the exit

    `ExecuteExitPayload` ends in one of five ways, by the stage that fails:
    reading the layer, building the request, sending it, reading the
    answer, or none. What `ExitHandler.HandleOnion` makes of the failures
    depends on the text of the error. -/

namespace HopVault

open Framework Framework.Json Framework.Prog Framework.Utf8

variable {X : Externals}

/-! ## Five ways -/

variable (X) in
/-- The ways through `executeExitPayload`, with what is done on each. -/
inductive ExitPath (key payload : Bytes) :
    List (Interaction Effects) → Result (Bytes × ExitLayer) → Prop
  | unread {err : Bytes} (hlayer : unwrapExitLayer X key payload = .error err) :
      ExitPath key payload [] (.error err)
  | unbuilt {layer : ExitLayer} {err : Bytes} (hlayer : unwrapExitLayer X key payload = .ok layer)
      (hbuild : X.newRequest layer.method layer.url = .error err) :
      ExitPath key payload [] (.error (wrap "invalid destination request" err))
  | unsent {layer : ExitLayer} {err : Bytes} (hlayer : unwrapExitLayer X key payload = .ok layer)
      (hbuild : X.newRequest layer.method layer.url = .ok ())
      (order : {l : List (Bytes × Bytes) // l.Perm layer.headers.entries}) :
      ExitPath key payload
        [.op (.range layer.headers) order,
         .op (.clientDo (destRequest layer order.1)) (.unreachable err)]
        (.error (wrap "destination unreachable" err))
  | unfinished {layer : ExitLayer} {err : Bytes}
      (hlayer : unwrapExitLayer X key payload = .ok layer)
      (hbuild : X.newRequest layer.method layer.url = .ok ())
      (order : {l : List (Bytes × Bytes) // l.Perm layer.headers.entries}) :
      ExitPath key payload
        [.op (.range layer.headers) order,
         .op (.clientDo (destRequest layer order.1)) (.broken err)]
        (.error (wrap "failed to read destination response" err))
  | answered {layer : ExitLayer} {resp : DestResponse}
      (hlayer : unwrapExitLayer X key payload = .ok layer)
      (hbuild : X.newRequest layer.method layer.url = .ok ())
      (order : {l : List (Bytes × Bytes) // l.Perm layer.headers.entries})
      (nonce : {b : Bytes // b.length = nonceSize}) :
      ExitPath key payload
        [.op (.range layer.headers) order,
         .op (.clientDo (destRequest layer order.1)) (.answered resp), .op (.rand nonceSize) nonce]
        (.ok (nonce.1 ++ X.gcmSeal key nonce.1 (exitResponse resp).json.encode, layer))

/-- A payload is read with an AES key only. -/
theorem newCipher_of_unwrapExitLayer {key payload : Bytes} {layer : ExitLayer}
    (h : unwrapExitLayer X key payload = .ok layer) : newCipher key = .ok () := by
  obtain ⟨plaintext, hdec, -⟩ := (unwrapExitLayer_eq_ok.mp h).reads
  unfold decrypt at hdec
  cases hkey : newCipher key with
  | error err =>
    rw [hkey] at hdec
    cases hdec
  | ok _ => rfl

/-- These are all the ways. -/
theorem exitPath_of_path {key payload : Bytes} {τ : List (Interaction Effects)}
    {r : Result (Bytes × ExitLayer)} (h : Path (executeExitPayload X key payload) τ r) :
    ExitPath X key payload τ r := by
  unfold executeExitPayload at h
  cases hlayer : unwrapExitLayer X key payload with
  | error err =>
    rw [hlayer] at h
    obtain ⟨rfl, rfl⟩ := path_ret.mp h
    exact .unread hlayer
  | ok layer =>
    rw [hlayer] at h
    obtain ⟨result, τ₁, τ₂, rfl, hexec, hrest⟩ := path_bind.mp h
    unfold executeExitRequest at hexec
    cases hbuild : X.newRequest layer.method layer.url with
    | error err =>
      rw [hbuild] at hexec
      obtain ⟨rfl, rfl⟩ := path_ret.mp hexec
      obtain ⟨rfl, rfl⟩ := path_ret.mp hrest
      exact .unbuilt hlayer hbuild
    | ok _ =>
      rw [hbuild] at hexec
      -- the headers are ranged over before the request goes out
      obtain ⟨order, τ₃, rfl, hdo⟩ := path_op.mp hexec
      obtain ⟨out, τ₄, rfl, hout⟩ := path_op.mp hdo
      cases out with
      | unreachable err =>
        obtain ⟨rfl, rfl⟩ := path_ret.mp hout
        obtain ⟨rfl, rfl⟩ := path_ret.mp hrest
        exact .unsent hlayer hbuild order
      | broken err =>
        obtain ⟨rfl, rfl⟩ := path_ret.mp hout
        obtain ⟨rfl, rfl⟩ := path_ret.mp hrest
        exact .unfinished hlayer hbuild order
      | answered resp =>
        obtain ⟨rfl, rfl⟩ := path_ret.mp hout
        -- the key has been good enough to read the layer
        have hkey := newCipher_of_unwrapExitLayer hlayer
        simp only [encryptExitResponse, encrypt, hkey, perform_eq, op_bind, ret_bind, pure_eq]
          at hrest
        obtain ⟨nonce, τ₅, rfl, hret⟩ := path_op.mp hrest
        obtain ⟨rfl, rfl⟩ := path_ret.mp hret
        exact .answered hlayer hbuild order nonce

/-- And each of them can be gone. -/
theorem ExitPath.path {key payload : Bytes} {τ : List (Interaction Effects)}
    {r : Result (Bytes × ExitLayer)} (h : ExitPath X key payload τ r) :
    Path (executeExitPayload X key payload) τ r := by
  unfold executeExitPayload executeExitRequest
  cases h with
  | unread hlayer =>
    rw [hlayer]
    exact .ret
  | unbuilt hlayer hbuild =>
    simp only [hlayer, hbuild, pure_eq, ret_bind]
    exact .ret
  | unsent hlayer hbuild order =>
    simp only [hlayer, hbuild, perform_eq, op_bind, ret_bind, pure_eq]
    exact .op (.op .ret)
  | unfinished hlayer hbuild order =>
    simp only [hlayer, hbuild, perform_eq, op_bind, ret_bind, pure_eq]
    exact .op (.op .ret)
  | answered hlayer hbuild order nonce =>
    have hkey := newCipher_of_unwrapExitLayer hlayer
    simp only [hlayer, hbuild, encryptExitResponse, encrypt, hkey, perform_eq, op_bind, ret_bind,
      pure_eq]
    exact .op (.op (.op .ret))

/-! ## Requests for a known circuit -/

/-- A request that gets as far as the key store. -/
structure Asks (r : ServerRequest) (req : OnionRequest) : Prop where
  post : r.method = methodPost
  body : decodeStream OnionRequest.fields .zero r.body = some req
  circuitID : req.circuitID ≠ []
  payload : req.payload ≠ []

/-- What the exit node answers to the way its execution went. -/
def exitAnswer : Result (Bytes × ExitLayer) → Response
  | .error err => ExitHandler.failureAnswer err
  | .ok answer => onionAnswer answer.1

/-- What it logs about it. -/
def exitLine (circuitID : Bytes) : Result (Bytes × ExitLayer) → Bytes
  | .error err => lit "[exit] circuit " ++ circuitID ++ lit " failed: " ++ err
  | .ok answer => lit "[exit] circuit " ++ circuitID ++ lit " → " ++ answer.2.method ++ lit " " ++
      answer.2.url

/-- The exit node's paths for a known circuit: the key is looked up, the
    payload executed, and a line logged. -/
theorem path_exitOnion {r : ServerRequest} {req : OnionRequest} (hr : Asks r req)
    {τ : List (Interaction Effects)} {key : Bytes} {resp : Response} :
    Path (ExitHandler.handleOnion X r) (.op (.keysGet req.circuitID) (some key) :: τ) resp ↔
      ∃ τ' out, ExitPath X key req.payload τ' out ∧
        τ = τ' ++ [.op (.log (exitLine req.circuitID out)) ()] ∧ resp = exitAnswer out := by
  have hpost : ¬r.method ≠ methodPost := fun h => h hr.post
  have hne : ¬(req.circuitID = [] ∨ req.payload = []) := fun h => h.elim hr.circuitID hr.payload
  simp only [ExitHandler.handleOnion, if_neg hpost, hr.body, if_neg hne, perform_eq, op_bind,
    ret_bind]
  constructor
  · intro h
    -- the key in the trace is the one the handler goes on with
    obtain ⟨key', τ', hτ, hexec⟩ := path_op.mp h
    cases hτ
    unfold ExitHandler.execute at hexec
    obtain ⟨out, τ₁, τ₂, rfl, hpayload, hrest⟩ := path_bind.mp hexec
    have hexit := exitPath_of_path hpayload
    cases out with
    | error err =>
      obtain ⟨_, τ₃, rfl, hret⟩ := path_op.mp hrest
      obtain ⟨rfl, rfl⟩ := path_ret.mp hret
      exact ⟨τ₁, _, hexit, rfl, rfl⟩
    | ok answer =>
      obtain ⟨_, τ₃, rfl, hret⟩ := path_op.mp hrest
      obtain ⟨rfl, rfl⟩ := path_ret.mp hret
      exact ⟨τ₁, _, hexit, rfl, rfl⟩
  · intro h
    obtain ⟨τ', out, hexit, rfl, rfl⟩ := h
    apply Path.op
    show Path (ExitHandler.execute X req key) _ _
    unfold ExitHandler.execute
    refine path_bind.mpr ⟨out, τ', _, rfl, hexit.path, ?_⟩
    cases out with
    | error err => exact .op .ret
    | ok answer => exact .op .ret

/-! ## Errors and their stages -/

/-- No layer is read from the payload, or no request built for it. -/
def Rejected (X : Externals) (key payload : Bytes) : Prop :=
  (∃ err, unwrapExitLayer X key payload = .error err) ∨
  ∃ layer err, unwrapExitLayer X key payload = .ok layer ∧
    X.newRequest layer.method layer.url = .error err

/-- The request was not sent or its answer not read, and the transport says
    why. -/
def TransportFails (τ : List (Interaction Effects)) (err : Bytes) : Prop :=
  ∃ dest, .op (.clientDo dest) (.unreachable err) ∈ τ ∨ .op (.clientDo dest) (.broken err) ∈ τ

/-- The status of an answer goes by the stage that failed. -/
structure ByStage (X : Externals) (key payload : Bytes) (τ : List (Interaction Effects))
    (resp : Response) : Prop where
  rejected : Rejected X key payload → resp.statusCode = statusBadRequest
  transport : ∀ err, TransportFails τ err → resp.statusCode = statusBadGateway

/-- The text does not read like an error of an earlier stage. -/
def Unambiguous (err : Bytes) : Prop :=
  contains err (lit "invalid destination request") = false ∧
  contains err (lit "exit layer") = false

/-- Every error of reading a layer speaks of the exit layer. -/
theorem contains_of_unread {key payload err : Bytes}
    (h : unwrapExitLayer X key payload = .error err) : contains err (lit "exit layer") = true := by
  have hwrap {what : String} (hwhat : contains (lit what) (lit "exit layer") = true)
      (err : Bytes) : contains (wrap what err) (lit "exit layer") = true := by
    rw [contains_wrap (by decide) (by decide) (by decide), hwhat, Bool.true_or]
  -- every way to refuse a layer names the exit layer
  unfold unwrapExitLayer at h
  cases hdec : decrypt X key payload with
  | error err' =>
    rw [hdec] at h
    cases h
    exact hwrap (by decide +kernel) _
  | ok plaintext =>
    rw [hdec] at h
    dsimp only at h
    cases hread : unmarshal ExitLayer.fields .zero plaintext with
    | none =>
      rw [hread] at h
      cases h
      exact hwrap (by decide +kernel) _
    | some layer =>
      rw [hread] at h
      dsimp only at h
      split_ifs at h
      cases h
      decide +kernel

/-- Every error of building the request speaks of it. -/
theorem contains_of_unbuilt (err : Bytes) : contains (wrap "invalid destination request" err)
    (lit "invalid destination request") = true := by
  rw [contains_wrap (by decide +kernel) (by decide +kernel) (by decide +kernel), Bool.or_eq_true]
  left
  decide +kernel

/-- What is read as an error of reading or building is answered 400. -/
theorem failureAnswer_early {err : Bytes} (h : contains err (lit "invalid destination request") = true ∨
    contains err (lit "exit layer") = true) :
    (ExitHandler.failureAnswer err).statusCode = statusBadRequest := by
  unfold ExitHandler.failureAnswer
  rw [if_pos (by simpa using h)]
  rfl

/-- No other status is answered to a failure. -/
theorem failureAnswer_status (err : Bytes) :
    (ExitHandler.failureAnswer err).statusCode = statusBadRequest ∨
      (ExitHandler.failureAnswer err).statusCode = statusBadGateway := by
  unfold ExitHandler.failureAnswer
  split_ifs
  · exact .inl rfl
  · exact .inr rfl
  · exact .inl rfl

/-- An error of the transport is answered 502 unless its text reads like an
    error of an earlier stage. -/
theorem failureAnswer_transport {what : String} (hwhat : what = "destination unreachable" ∨
    what = "failed to read destination response") (err : Bytes) :
    (ExitHandler.failureAnswer (wrap what err)).statusCode = statusBadGateway ↔ Unambiguous err := by
  -- the handler looks for these two first, and only the cause can contain them
  have hearly (sub : Bytes) (hsub : sub = lit "invalid destination request" ∨ sub = lit "exit layer") :
      contains (wrap what err) sub = contains err sub := by
    have hnone : contains (lit what) sub = false := by
      rcases hwhat with rfl | rfl <;> rcases hsub with rfl | rfl <;> decide +kernel
    have hword : 58 ∉ sub ∧ sub.head? ≠ some 32 ∧ sub ≠ [] := by
      rcases hsub with rfl | rfl <;> decide +kernel
    rw [contains_wrap hword.1 hword.2.1 hword.2.2, hnone, Bool.false_or]
  have hlate : (contains (wrap what err) (lit "destination unreachable") ||
      contains (wrap what err) (lit "failed to read destination response")) = true := by
    rw [contains_wrap (by decide +kernel) (by decide +kernel) (by decide +kernel),
      contains_wrap (by decide +kernel) (by decide +kernel) (by decide +kernel)]
    rcases hwhat with rfl | rfl
    · have hfound : contains (lit "destination unreachable") (lit "destination unreachable") = true := by
        decide +kernel
      rw [hfound]
      rfl
    · have hfound : contains (lit "failed to read destination response")
          (lit "failed to read destination response") = true := by decide +kernel
      rw [hfound, Bool.true_or, Bool.or_true]
  unfold ExitHandler.failureAnswer Unambiguous
  rw [hearly _ (.inl rfl), hearly _ (.inr rfl), if_pos hlate]
  -- read as a bad request, or as the failure it is
  by_cases hread : (contains err (lit "invalid destination request") ||
      contains err (lit "exit layer")) = true
  · rw [if_pos hread]
    refine iff_of_false (by decide) ?_
    intro h
    rw [h.1, h.2] at hread
    cases hread
  · rw [if_neg hread]
    refine iff_of_true rfl ?_
    simpa using hread

/-- A layer that is executed was not rejected. -/
theorem not_rejected {key payload : Bytes} {layer : ExitLayer}
    (hlayer : unwrapExitLayer X key payload = .ok layer)
    (hbuild : X.newRequest layer.method layer.url = .ok ()) : ¬Rejected X key payload := by
  rintro (⟨err, herr⟩ | ⟨layer', err, hlayer', herr⟩)
  · rw [hlayer] at herr
    cases herr
  · rw [hlayer] at hlayer'
    cases hlayer'
    rw [hbuild] at herr
    cases herr

theorem transportFails_sent {m : SortedMap Bytes Bytes}
    {order : {l : List (Bytes × Bytes) // l.Perm m.entries}} {dest : DestRequest} {out : DestOutcome}
    {line err : Bytes} :
    TransportFails [.op (.range m) order, .op (.clientDo dest) out, .op (.log line) ()] err ↔
      .unreachable err = out ∨ .broken err = out := by
  simp [TransportFails, exists_or]

/-- Where the transport does not fail, the texts do not matter. -/
theorem byStage_of_none {key payload : Bytes} {τ : List (Interaction Effects)} {resp : Response}
    (hnone : ∀ err, ¬TransportFails τ err)
    (hrejected : Rejected X key payload → resp.statusCode = statusBadRequest) :
    ByStage X key payload τ resp ↔ ∀ err, TransportFails τ err → Unambiguous err :=
  iff_of_true ⟨hrejected, fun err herr => absurd herr (hnone err)⟩
    fun err herr => absurd herr (hnone err)

/-- Where it does, its text decides. -/
theorem byStage_of_failure {key payload err : Bytes} {τ : List (Interaction Effects)}
    {resp : Response} (hnot : ¬Rejected X key payload)
    (hfails : ∀ err', TransportFails τ err' ↔ err = err')
    (hstatus : resp.statusCode = statusBadGateway ↔ Unambiguous err) :
    ByStage X key payload τ resp ↔ ∀ err, TransportFails τ err → Unambiguous err := by
  constructor
  · intro hstage err' herr
    rw [← (hfails err').mp herr]
    exact hstatus.mp (hstage.transport err ((hfails err).mpr rfl))
  · intro hclear
    exact ⟨fun h => absurd h hnot, fun _ _ => hstatus.mpr (hclear err ((hfails err).mpr rfl))⟩

/-- **Errors by stage**: for a known circuit the exit node's answer goes by
    the stage that failed exactly if what the transport says does not read
    like an error of reading or building. -/
theorem exit_errors_by_stage {r : ServerRequest} {req : OnionRequest} (hr : Asks r req)
    {τ : List (Interaction Effects)} {key : Bytes} {resp : Response}
    (h : Path (ExitHandler.handleOnion X r) (.op (.keysGet req.circuitID) (some key) :: τ) resp) :
    ByStage X key req.payload τ resp ↔ ∀ err, TransportFails τ err → Unambiguous err := by
  obtain ⟨τ', out, hexit, rfl, rfl⟩ := (path_exitOnion hr).mp h
  -- where the execution stopped decides which stage has to show
  cases hexit with
  | unread hlayer =>
    apply byStage_of_none
    · simp [TransportFails]
    · intro _
      exact failureAnswer_early (.inr (contains_of_unread hlayer))
  | @unbuilt _ err hlayer hbuild =>
    apply byStage_of_none
    · simp [TransportFails]
    · intro _
      exact failureAnswer_early (.inl (contains_of_unbuilt err))
  | unsent hlayer hbuild order =>
    refine byStage_of_failure (not_rejected hlayer hbuild) ?_ (failureAnswer_transport (.inl rfl) _)
    intro err'
    exact transportFails_sent.trans (by simp [eq_comm])
  | unfinished hlayer hbuild order =>
    refine byStage_of_failure (not_rejected hlayer hbuild) ?_ (failureAnswer_transport (.inr rfl) _)
    intro err'
    exact transportFails_sent.trans (by simp [eq_comm])
  | answered hlayer hbuild order nonce =>
    apply byStage_of_none
    · simp [TransportFails]
    · intro hrejected
      exact absurd hrejected (not_rejected hlayer hbuild)

namespace Sample

theorem asks {payload : Bytes} (h : payload ≠ []) : Asks (request payload) ⟨lit "c1", payload⟩ := by
  constructor
  · rfl
  · rw [request, decode_onionRequest]
    have hid : toValid (lit "c1") = lit "c1" := by decide +kernel
    rw [hid]
  · show lit "c1" ≠ []
    decide
  · exact h

/-- The exit's path for a layer when the destination cannot be reached. -/
theorem path_unsent {l : ExitLayer} (htext : l.coerced = l) (hurl : l.url ≠ [])
    (hmethod : l.method ≠ []) (err : Bytes) : ∃ line,
    Path (ExitHandler.handleOnion externals (request (sealed keys.exitKey l.json.encode)))
      [.op (.keysGet (lit "c1")) (some keys.exitKey),
       .op (.range l.headers) ⟨l.headers.entries, .refl _⟩,
       .op (.clientDo (destRequest l l.headers.entries)) (.unreachable err), .op (.log line) ()]
      (ExitHandler.failureAnswer (wrap "destination unreachable" err)) :=
  ⟨_, (path_exitOnion (asks sealed_ne_nil)).mpr
    ⟨_, _, .unsent (unwrapExitLayer_eq rfl htext hurl hmethod) rfl ⟨l.headers.entries, .refl _⟩, rfl,
      rfl⟩⟩

/-- A request whose URL has words in it that the exit looks for. -/
def wordyLayer : ExitLayer :=
  ⟨lit "http://127.0.0.1:1/?q=exit layer", lit "GET", .empty, []⟩

/-- What `net/http` says when nobody listens there. -/
def refused : Bytes :=
  lit "Get \"http://127.0.0.1:1/?q=exit layer\": dial tcp 127.0.0.1:1: connect: connection refused"

end Sample

/-- A destination that refuses connections is answered 502. -/
theorem exit_errors_by_stage_sample : ∃ τ resp,
    Path (ExitHandler.handleOnion Sample.externals
      (Sample.request (Sample.sealed Sample.keys.exitKey Sample.layer.json.encode)))
      (.op (.keysGet (lit "c1")) (some Sample.keys.exitKey) :: τ) resp ∧
    resp.statusCode = statusBadGateway := by
  obtain ⟨line, hpath⟩ := Sample.path_unsent (l := Sample.layer) (by decide +kernel) (by decide)
    (by decide) (lit "connection refused")
  have hclear : Unambiguous (lit "connection refused") := by
    constructor <;> decide +kernel
  have hstage := (exit_errors_by_stage (Sample.asks Sample.sealed_ne_nil) hpath).mpr (by
    intro err herr
    rcases transportFails_sent.mp herr with herr | herr
    · cases herr
      exact hclear
    · cases herr)
  exact ⟨_, _, hpath, hstage.transport _ (transportFails_sent.mpr (.inl rfl))⟩

/-- The same with a URL that has the words `exit layer` in its query is
    answered 400. -/
theorem exit_errors_by_content : ∃ τ resp,
    Path (ExitHandler.handleOnion Sample.externals
      (Sample.request (Sample.sealed Sample.keys.exitKey Sample.wordyLayer.json.encode)))
      (.op (.keysGet (lit "c1")) (some Sample.keys.exitKey) :: τ) resp ∧
    TransportFails τ Sample.refused ∧ resp.statusCode = statusBadRequest ∧
    ¬ByStage Sample.externals Sample.keys.exitKey
      (Sample.sealed Sample.keys.exitKey Sample.wordyLayer.json.encode) τ resp := by
  obtain ⟨line, hpath⟩ := Sample.path_unsent (l := Sample.wordyLayer) (by decide +kernel) (by decide)
    (by decide) Sample.refused
  have hstatus : (ExitHandler.failureAnswer (wrap "destination unreachable" Sample.refused)).statusCode =
      statusBadRequest := by decide +kernel
  refine ⟨_, _, hpath, transportFails_sent.mpr (.inl rfl), hstatus, ?_⟩
  intro hstage
  have h502 := hstage.transport _ (transportFails_sent.mpr (.inl rfl))
  rw [hstatus] at h502
  cases h502

end HopVault
