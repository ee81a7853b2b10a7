import HopVault.Building
import HopVault.ExitPaths
import HopVault.Onion.Handler

/-! # A guard that is also an exit

    A handler with direct exit peels a forwarding layer if it can, and
    executes the payload as an exit layer otherwise. Nothing in the
    ciphertext says which of the two it is meant to be. -/

namespace HopVault

open Framework Framework.Json Framework.Prog Framework.Utf8

section

variable {X : Externals}

/-! ## Two readings of a payload -/

/-- A payload is forwarded to one next hop only. -/
theorem Forwards.unique {key payload : Bytes} {l l' : Layer} (h : Forwards X key payload l)
    (h' : Forwards X key payload l') : l = l' := by
  rw [← unwrapLayer_eq_ok] at h h'
  rw [h] at h'
  exact Except.ok.inj h'

/-- A payload that is not for forwarding is not unwrapped. -/
theorem unwrapLayer_of_not_forwards {key payload : Bytes} (h : ∀ l, ¬Forwards X key payload l) :
    ∃ err, unwrapLayer X key payload = .error err := by
  cases hlayer : unwrapLayer X key payload with
  | error err => exact ⟨err, rfl⟩
  | ok layer => exact absurd (unwrapLayer_eq_ok.mp hlayer) (h layer)

/-! ## Paths of the handler -/

variable {h : Handler} {r : ServerRequest} {req : OnionRequest} {τ : List (Interaction Effects)}
  {key : Bytes} {resp : Response}

/-- After the key look-up the payload is peeled. -/
theorem path_handleOnion (hr : Asks r req) :
    Path (h.handleOnion X r) (.op (.keysGet req.circuitID) (some key) :: τ) resp ↔
      Path (h.peel X r.remoteAddr req key) τ resp := by
  have hpost : ¬r.method ≠ methodPost := fun h => h hr.post
  have hne : ¬(req.circuitID = [] ∨ req.payload = []) := fun h => h.elim hr.circuitID hr.payload
  simp only [Handler.handleOnion, if_neg hpost, hr.body, if_neg hne, perform_eq, op_bind,
    ret_bind]
  constructor
  · intro hpath
    obtain ⟨key', τ', hτ, hpeel⟩ := path_op.mp hpath
    cases hτ
    exact hpeel
  · intro hpeel
    exact .op hpeel

/-- What the guard answers to the way its execution of a payload went. -/
def directAnswer : Result (Bytes × ExitLayer) → Response
  | .error _ => httpError "decryption failed" statusBadRequest
  | .ok answer => onionAnswer answer.1

/-- What it logs about it; `err` is why the payload is not for forwarding. -/
def directLine (h : Handler) (prevHop circuitID err : Bytes) : Result (Bytes × ExitLayer) → Bytes
  | .error _ => lit "[" ++ h.nodeLabel ++ lit "] " ++ (lit "decryption failed for circuit " ++
      circuitID ++ lit " from " ++ prevHop ++ lit ": " ++ err)
  | .ok answer => lit "[" ++ h.nodeLabel ++ lit "] " ++ (lit "circuit " ++ circuitID ++ lit ": " ++
      prevHop ++ lit " → direct " ++ answer.2.method ++ lit " " ++ answer.2.url)

/-- A payload that is not for forwarding is executed, and a line logged. -/
theorem path_direct (hdirect : h.allowDirectExit = true) {err : Bytes}
    (hlayer : unwrapLayer X key req.payload = .error err) {prevHop : Bytes} :
    Path (h.peel X prevHop req key) τ resp ↔
      ∃ τ' out, ExitPath X key req.payload τ' out ∧
        τ = τ' ++ [.op (.log (directLine h prevHop req.circuitID err out)) ()] ∧
        resp = directAnswer out := by
  simp only [Handler.peel, hlayer, if_pos hdirect, Handler.directExit]
  constructor
  · intro hpath
    -- the payload is executed first, and then one line is logged
    obtain ⟨out, τ₁, τ₂, rfl, hpayload, hrest⟩ := path_bind.mp hpath
    have hexit := exitPath_of_path hpayload
    cases out with
    | error exitErr =>
      obtain ⟨_, τ₃, rfl, hret⟩ := path_op.mp hrest
      obtain ⟨rfl, rfl⟩ := path_ret.mp hret
      exact ⟨τ₁, _, hexit, rfl, rfl⟩
    | ok answer =>
      obtain ⟨_, τ₃, rfl, hret⟩ := path_op.mp hrest
      obtain ⟨rfl, rfl⟩ := path_ret.mp hret
      exact ⟨τ₁, _, hexit, rfl, rfl⟩
  · intro hpath
    obtain ⟨τ', out, hexit, rfl, rfl⟩ := hpath
    apply path_bind.mpr
    refine ⟨out, τ', _, rfl, hexit.path, ?_⟩
    cases out with
    | error exitErr => exact .op .ret
    | ok answer => exact .op .ret

/-! ## Outbound calls -/

/-- A call of an HTTP client. -/
inductive Outbound where
  | forward (q : Post)
  | destination (dest : DestRequest)
  | directory (url : Bytes)
  deriving DecidableEq

/-- The client call an interaction is, if it is one. -/
def outboundCall : Interaction Effects → Option Outbound
  | .rpc q _ => some (.forward q)
  | .op (.clientDo dest) _ => some (.destination dest)
  | .op (.httpGet url) _ => some (.directory url)
  | .op _ _ => none

/-- The client calls on a path, in order. -/
def outbound (τ : List (Interaction Effects)) : List Outbound := τ.filterMap outboundCall

/-- An operation that is no client call. -/
def Effect.Inward : Effect → Prop
  | .clientDo _ => False
  | .httpGet _ => False
  | _ => True

theorem Effect.Plain.inward {e : Effect} (he : e.Plain) : e.Inward := by
  cases e <;> first | exact he | trivial

/-- Inward operations are not seen outside. -/
theorem outbound_of_inward
    (hin : ∀ x ∈ τ, Interaction.Within (S := Effects) Effect.Inward (fun _ => False) x) :
    outbound τ = [] := by
  unfold outbound
  rw [List.filterMap_eq_nil_iff]
  intro x hx
  have hwithin := hin x hx
  cases x with
  | rpc q a => cases hwithin
  | op e a =>
    cases e with
    | clientDo dest => cases hwithin
    | httpGet url => cases hwithin
    | _ => rfl

/-- A forwarding layer: its payload goes to its next hop, and that is all. -/
theorem outbound_forward {layer : Layer} (hlayer : unwrapLayer X key req.payload = .ok layer)
    {prevHop : Bytes} (hpath : Path (h.peel X prevHop req key) τ resp) :
    outbound τ = [.forward (jsonPost (nextHopURL layer.nextHop)
      (OnionRequest.json ⟨req.circuitID, layer.payload⟩).encode)] := by
  simp only [Handler.peel, hlayer, Handler.forward] at hpath
  obtain ⟨_, τ₁, rfl, hpost⟩ := path_op.mp hpath
  obtain ⟨answer, τ₂, rfl, hrest⟩ := path_rpc.mp hpost
  -- the next hop's answer is read and passed on, which calls no one
  have hreturn := Handler.all_returnPath (R := fun _ => False) (X := X)
    (fun _ he => Effect.Plain.inward he) h key layer.nextHop answer
  have hquiet : (acceptResponse (nextHopURL layer.nextHop) answer >>= fun _ =>
      h.returnPath X key layer.nextHop answer).All Effect.Inward (fun _ => False)
      (fun resp => resp.statusCode ≠ statusNoContent) := by
    cases answer with
    | error err => exact hreturn
    | ok a => exact ⟨trivial, fun _ => hreturn⟩
  have hnone : outbound τ₂ = [] := outbound_of_inward (Path.of_all hrest hquiet).2
  show _ :: outbound τ₂ = _
  rw [hnone]
  rfl

/-- Any other payload: the request of its exit layer, if it is one and can
    be built, and that is all. -/
theorem outbound_direct {τ' : List (Interaction Effects)} {out : Result (Bytes × ExitLayer)}
    (hexit : ExitPath X key req.payload τ' out) : outbound τ' = [] ∨
      ∃ layer order, Requests X key req.payload layer ∧
        outbound τ' = [.destination (destRequest layer order)] := by
  cases hexit with
  | unread hlayer => exact .inl rfl
  | unbuilt hlayer hbuild => exact .inl rfl
  | unsent hlayer hbuild order => exact .inr ⟨_, order.1, unwrapExitLayer_eq_ok.mp hlayer, rfl⟩
  | unfinished hlayer hbuild order => exact .inr ⟨_, order.1, unwrapExitLayer_eq_ok.mp hlayer, rfl⟩
  | answered hlayer hbuild order nonce =>
    exact .inr ⟨_, order.1, unwrapExitLayer_eq_ok.mp hlayer, rfl⟩

/-! ## What the client builds -/

variable {keys : SessionKeys} {layer : ExitLayer} {relayAddr exitAddr payload : Bytes}

/-- An onion for three hops is for forwarding. -/
theorem forwards_of_buildOnion (hX : X.LawfulAEAD)
    (hbuild : Yields (buildOnionWithHops X keys layer relayAddr exitAddr 3) (.ok payload))
    (haddr : relayAddr ≠ []) : ∃ l, Forwards X keys.guardKey payload l := by
  obtain ⟨exitCT, relayCT, -, hrelay, hguard⟩ := yields_buildOnion_three.mp hbuild
  refine ⟨⟨toValid relayAddr, relayCT⟩, ⟨_, decrypt_of_wrapLayer hX hguard, unmarshal_layer _⟩, ?_,
    ne_nil_of_decrypt (decrypt_of_wrapLayer hX hrelay)⟩
  intro hnil
  exact haddr (toValid_eq_nil.mp hnil)

/-- An onion for one hop is for executing. -/
theorem requests_of_buildOnion (hX : X.LawfulAEAD)
    (hbuild : Yields (buildOnionWithHops X keys layer relayAddr exitAddr 1) (.ok payload))
    (hurl : layer.url ≠ []) (hmethod : layer.method ≠ []) :
    (∀ l, ¬Forwards X keys.guardKey payload l) ∧ ∃ l, Requests X keys.guardKey payload l := by
  have hdec := decrypt_of_yields hX (yields_buildOnion_one.mp hbuild)
  constructor
  · intro l hl
    obtain ⟨plaintext, hdec', hread⟩ := hl.reads
    rw [hdec] at hdec'
    obtain rfl := Except.ok.inj hdec'
    -- neither field of a forwarding layer occurs in an exit layer
    rw [unmarshal_exitLayer_as_layer] at hread
    obtain rfl := Option.some.inj hread
    exact hl.nextHop rfl
  · exact ⟨layer.coerced, ⟨_, hdec, unmarshal_exitLayer layer⟩,
      fun h => hurl (toValid_eq_nil.mp h), fun h => hmethod (toValid_eq_nil.mp h)⟩

/-! ## Two modes -/

/-- The mode of a run goes by the payload alone. -/
structure OneMode (X : Externals) (key : Bytes) (req : OnionRequest)
    (τ : List (Interaction Effects)) : Prop where
  /-- At most one client call. -/
  once : (outbound τ).length ≤ 1
  /-- A payload for forwarding is forwarded. -/
  forwards : ∀ layer, Forwards X key req.payload layer →
    outbound τ = [.forward (jsonPost (nextHopURL layer.nextHop)
      (OnionRequest.json ⟨req.circuitID, layer.payload⟩).encode)]
  /-- No other payload is. -/
  forwarded : ∀ q, .forward q ∈ outbound τ → ∃ layer, Forwards X key req.payload layer
  /-- Only an exit layer that is not for forwarding is executed. -/
  executed : ∀ dest, .destination dest ∈ outbound τ →
    (∀ layer, ¬Forwards X key req.payload layer) ∧
    ∃ layer order, Requests X key req.payload layer ∧ dest = destRequest layer order
  /-- The directory is not asked. -/
  directory : ∀ url, .directory url ∉ outbound τ

/-- A run of the handler is in one mode. -/
theorem oneMode_of_path (hdirect : h.allowDirectExit = true) {prevHop : Bytes}
    (hpath : Path (h.peel X prevHop req key) τ resp) : OneMode X key req τ := by
  cases hlayer : unwrapLayer X key req.payload with
  | ok layer =>
    -- a layer with a next hop is forwarded, and nothing else goes out
    have hout := outbound_forward hlayer hpath
    have hforwards := unwrapLayer_eq_ok.mp hlayer
    constructor
    · rw [hout, List.length_singleton]
    · intro l hl
      rw [hl.unique hforwards]
      exact hout
    · intro q _
      exact ⟨layer, hforwards⟩
    · intro dest hdest
      rw [hout, List.mem_singleton] at hdest
      cases hdest
    · intro url hurl
      rw [hout, List.mem_singleton] at hurl
      cases hurl
  | error err =>
    obtain ⟨τ', out, hexit, rfl, rfl⟩ := (path_direct hdirect hlayer).mp hpath
    have hnot (l : Layer) : ¬Forwards X key req.payload l := by
      intro hl
      rw [unwrapLayer_eq_ok.mpr hl] at hlayer
      cases hlayer
    have hout : outbound (τ' ++ [.op (.log (directLine h prevHop req.circuitID err out)) ()]) =
        outbound τ' := by
      unfold outbound
      rw [List.filterMap_append]
      exact List.append_nil _
    -- the destination is called once, or not at all
    rcases outbound_direct hexit with hnone | ⟨layer, order, hrequests, hone⟩
    · rw [hnone] at hout
      constructor
      · rw [hout]
        exact Nat.zero_le 1
      · intro l hl
        exact absurd hl (hnot l)
      · intro q hq
        rw [hout] at hq
        cases hq
      · intro dest hdest
        rw [hout] at hdest
        cases hdest
      · intro url hurl
        rw [hout] at hurl
        cases hurl
    · rw [hone] at hout
      constructor
      · rw [hout, List.length_singleton]
      · intro l hl
        exact absurd hl (hnot l)
      · intro q hq
        rw [hout, List.mem_singleton] at hq
        cases hq
      · intro dest hdest
        rw [hout, List.mem_singleton] at hdest
        cases hdest
        exact ⟨hnot, layer, order, hrequests, rfl⟩
      · intro url hurl
        rw [hout, List.mem_singleton] at hurl
        cases hurl

/-- **No mode confusion**: for a known circuit a guard with direct exit makes
    at most one client call, a forward if and only if the payload is for
    forwarding, and a destination request only for an exit layer. The
    onions the client builds for three hops are of the first kind and those
    for one hop of the second. -/
theorem direct_exit_modes (hX : X.LawfulAEAD) (hdirect : h.allowDirectExit = true)
    (hr : Asks r req)
    (hpath : Path (h.handleOnion X r) (.op (.keysGet req.circuitID) (some key) :: τ) resp) :
    OneMode X key req τ ∧
    ∀ keys layer relayAddr exitAddr payload,
      (Yields (buildOnionWithHops X keys layer relayAddr exitAddr 3) (.ok payload) → relayAddr ≠ [] →
        (∃ l, Forwards X keys.guardKey payload l) ∧
        (key = keys.guardKey → req.payload = payload → ∀ dest, .destination dest ∉ outbound τ)) ∧
      (Yields (buildOnionWithHops X keys layer relayAddr exitAddr 1) (.ok payload) →
        layer.url ≠ [] → layer.method ≠ [] →
        (∀ l, ¬Forwards X keys.guardKey payload l) ∧ (∃ l, Requests X keys.guardKey payload l) ∧
        (key = keys.guardKey → req.payload = payload → ∀ q, .forward q ∉ outbound τ)) := by
  have hmode := oneMode_of_path hdirect ((path_handleOnion hr).mp hpath)
  refine ⟨hmode, ?_⟩
  intro keys layer relayAddr exitAddr payload
  constructor
  · intro hbuild haddr
    obtain ⟨l, hl⟩ := forwards_of_buildOnion hX hbuild haddr
    refine ⟨⟨l, hl⟩, ?_⟩
    rintro rfl rfl dest hdest
    exact (hmode.executed dest hdest).1 l hl
  · intro hbuild hurl hmethod
    obtain ⟨hnot, hrequests⟩ := requests_of_buildOnion hX hbuild hurl hmethod
    refine ⟨hnot, hrequests, ?_⟩
    rintro rfl rfl q hq
    obtain ⟨l, hl⟩ := hmode.forwarded q hq
    exact hnot l hl

end

namespace Sample

/-- A guard that is also an exit. -/
def guardHandler : Handler := newHandlerWithDirectExit (lit "guard")

/-- The payload of a one-hop circuit. -/
def onion : Bytes := sealed keys.guardKey layer.json.encode

theorem yields_onion :
    Yields (buildOnionWithHops externals keys layer [] [] 1) (.ok onion) :=
  yields_buildOnion_one.mpr (yields_encrypt rfl _)

/-- It is not for forwarding. -/
theorem unwrapLayer_onion : ∃ err, unwrapLayer externals keys.guardKey onion = .error err := by
  apply unwrapLayer_of_not_forwards
  exact (requests_of_buildOnion lawfulAEAD yields_onion (by decide) (by decide)).1

/-- The way through the exit when nobody listens at the destination. -/
theorem exitPath_onion (err : Bytes) : ExitPath externals keys.guardKey onion
    [.op (.range layer.headers) ⟨layer.headers.entries, .refl _⟩,
     .op (.clientDo (destRequest layer layer.headers.entries)) (.unreachable err)]
    (.error (wrap "destination unreachable" err)) :=
  .unsent (unwrapExitLayer_eq rfl (by decide +kernel) (by decide) (by decide)) rfl
    ⟨layer.headers.entries, .refl _⟩

/-- The guard's path when it is asked for it. -/
theorem path_onion (err : Bytes) : ∃ line,
    Path (guardHandler.handleOnion externals (request onion))
      [.op (.keysGet (lit "c1")) (some keys.guardKey),
       .op (.range layer.headers) ⟨layer.headers.entries, .refl _⟩,
       .op (.clientDo (destRequest layer layer.headers.entries)) (.unreachable err), .op (.log line) ()]
      (httpError "decryption failed" statusBadRequest) := by
  obtain ⟨why, hlayer⟩ := unwrapLayer_onion
  exact ⟨_, (path_handleOnion (asks sealed_ne_nil)).mpr ((path_direct rfl hlayer).mpr
    ⟨_, _, exitPath_onion err, rfl, rfl⟩)⟩

end Sample

/-- A payload for one hop is not forwarded. -/
theorem direct_exit_modes_sample : ∃ τ resp,
    Path (Sample.guardHandler.handleOnion Sample.externals (Sample.request Sample.onion))
      (.op (.keysGet (lit "c1")) (some Sample.keys.guardKey) :: τ) resp ∧
    ∀ q, .forward q ∉ outbound τ := by
  obtain ⟨line, hpath⟩ := Sample.path_onion (lit "connection refused")
  have hmodes := direct_exit_modes Sample.lawfulAEAD rfl (Sample.asks Sample.sealed_ne_nil) hpath
  have hone := (hmodes.2 Sample.keys Sample.layer [] [] Sample.onion).2 Sample.yields_onion
    (by decide) (by decide)
  exact ⟨_, _, hpath, hone.2.2 rfl rfl⟩

end HopVault
