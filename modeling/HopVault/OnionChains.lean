import HopVault.Footprint
import HopVault.Onion.Codec
import HopVault.Sample
import HopVault.Framework.Count
import HopVault.Framework.JsonText

/-! # Onion chains end

    A forwarding node posts the inner payload to whatever address the layer
    names, with no hop count and no memory of where the onion has been. The
    chain of forwards ends all the same, also around a cycle of nodes: each
    layer that is peeled is longer than the payload it holds, since
    decryption takes off 28 octets and neither JSON nor base64 gives any
    back. -/

namespace HopVault

open Framework Framework.Json Framework.Semantics

/-! ## A peeled layer is shorter -/

/-- The length of a GCM tag. -/
def tagSize : Nat := 16

/-- AES-GCM: what opens is longer than its plaintext by the tag. -/
def Externals.TagLength (X : Externals) : Prop :=
  ∀ {key nonce data plaintext : Bytes}, X.gcmOpen key nonce data = some plaintext →
    data.length = plaintext.length + tagSize

variable {X : Externals}

/-- Decryption takes off the nonce and the tag. -/
theorem decrypt_length (htag : X.TagLength) {key ct plaintext : Bytes}
    (h : decrypt X key ct = .ok plaintext) :
    ct.length = plaintext.length + nonceSize + tagSize := by
  unfold decrypt at h
  cases hkey : newCipher key with
  | error err =>
    rw [hkey] at h
    cases h
  | ok _ =>
    rw [hkey] at h
    dsimp only at h
    -- what is too short to hold a nonce never opens
    by_cases hshort : ct.length < nonceSize
    · rw [if_pos hshort] at h
      cases h
    · rw [if_neg hshort] at h
      cases hopen : X.gcmOpen key (ct.take nonceSize) (ct.drop nonceSize) with
      | none =>
        rw [hopen] at h
        cases h
      | some p =>
        rw [hopen] at h
        obtain rfl : p = plaintext := Except.ok.inj h
        have hlen := htag hopen
        rw [List.length_drop] at hlen
        omega

/-- The payload of a layer has no more octets than the layer's text,
    however the text spells it. -/
theorem unmarshal_layer_length {text : Bytes} {layer : Layer}
    (h : unmarshal Layer.fields .zero text = some layer) : layer.payload.length ≤ text.length := by
  unfold unmarshal at h
  cases hparse : parse text with
  | none =>
    rw [hparse] at h
    cases h
  | some j =>
    rw [hparse] at h
    have hweight := (parse_read hparse).2
    apply fill_keeps (P := fun l : Layer => l.payload.length ≤ text.length) h (Nat.zero_le _)
    rintro ms rfl m hm f hf a b ha hb
    simp only [Layer.fields, List.mem_cons, List.not_mem_nil, or_false] at hf
    rcases hf with rfl | rfl
    · -- the address does not touch the payload
      obtain ⟨s, -, rfl⟩ := Option.map_eq_some_iff.mp hb
      exact ha
    · obtain ⟨s, hs, rfl⟩ := Option.map_eq_some_iff.mp hb
      have hread : s.length ≤ m.2.weight := asBytes_length hs
      have hmember := weight_le_weightMembers m hm
      have hobj : (Json.obj ms).weight = weightMembers ms := by
        simp only [weight]
      show s.length ≤ text.length
      omega

/-- A layer is longer than the payload it holds. -/
theorem unwrapLayer_length (htag : X.TagLength) {key ct : Bytes} {layer : Layer}
    (h : unwrapLayer X key ct = .ok layer) : layer.payload.length < ct.length := by
  obtain ⟨plaintext, hdec, hread⟩ := (unwrapLayer_eq_ok.mp h).reads
  have htext := unmarshal_layer_length hread
  have hct := decrypt_length htag hdec
  have hnonce : 0 < nonceSize := by decide
  omega

/-! ## Forwards -/

section

variable {ι ν : Type} [DecidableEq ι] [DecidableEq ν]

/-- Run by itself, the program returns; the POSTs it makes and all those
    they lead to are `k`. -/
def Net.Forwards (N : Net ν) {α : Type} (ℓ : Loc ι ν) (p : Go α) (w : World ι ν) (a : α)
    (w' : World ι ν) (k : Nat) : Prop :=
  N.reliable.Counts (fun _ => 0) (fun _ => 1) ℓ p w a w' k

/-- Run by itself, the program returns after at most `K` forwards. -/
def Net.ForwardsWithin (N : Net ν) {α : Type} (ℓ : Loc ι ν) (p : Go α) (w : World ι ν) (K : Nat) :
    Prop :=
  N.reliable.EndsWithin (fun _ => 0) (fun _ => 1) ℓ p w K

variable {N : Net ν} {n : ν} {i : ι} {w : World ι ν}

/-- A program that posts nothing. -/
theorem forwardsWithin_of_all {α : Type} {ℓ : Loc ι ν} {p : Go α} {T : α → Prop} (K : Nat)
    (h : p.All (fun _ => True) (fun _ => False) T) : N.ForwardsWithin ℓ p w K :=
  (endsWithin_of_all h fun _ _ => rfl).mono (Nat.zero_le K)

/-- An operation is no forward. -/
theorem forwardsWithin_op {α : Type} {ℓ : Loc ι ν} {e : Effect} {k : e.Ans → Go α} {K : Nat}
    (h : ∀ a (w₁ : World ι ν), N.ForwardsWithin ℓ (k a) w₁ K) :
    N.ForwardsWithin ℓ (.op e k) w K := by
  have hrun : N.ForwardsWithin ℓ (.op e k) w (0 + K) := endsWithin_op (h _ _)
  exact hrun.mono (by omega)

/-- The POST of an inner payload to the next hop ends within `K`
    forwards. -/
def Net.HopWithin (N : Net ν) (ℓ : Loc ι ν) (circuitID : Bytes) (layer : Layer) (K : Nat) : Prop :=
  ∀ w : World ι ν, N.ForwardsWithin
    (N.serve ℓ (jsonPost (nextHopURL layer.nextHop)
      (OnionRequest.json ⟨circuitID, layer.payload⟩).encode)).1
    (N.serve ℓ (jsonPost (nextHopURL layer.nextHop)
      (OnionRequest.json ⟨circuitID, layer.payload⟩).encode)).2 w K

/-- A forwarding node makes one forward, and the rest is up to the next
    hop. -/
theorem forwardsWithin_peel {h : Handler} {addr key : Bytes} {req : OnionRequest} {K : Nat}
    (hnext : ∀ layer, unwrapLayer N.X key req.payload = .ok layer →
      ∃ K', K = K' + 1 ∧ N.HopWithin (i, .node n) req.circuitID layer K') :
    N.ForwardsWithin (i, .node n) (h.peel N.X addr req key) w K := by
  have hplain : ∀ e : Effect, e.Plain → (fun _ : Effect => True) e := fun _ _ => trivial
  unfold Handler.peel
  cases hunwrap : unwrapLayer N.X key req.payload with
  | error err =>
    dsimp only
    by_cases hdirect : h.allowDirectExit = true
    · rw [if_pos hdirect]
      exact forwardsWithin_of_all K
        (Handler.all_directExit hplain h (fun _ => trivial) addr req key err)
    · rw [if_neg hdirect]
      exact forwardsWithin_of_all K (all_logError hplain (by decide))
  | ok layer =>
    obtain ⟨K', rfl, hcall⟩ := hnext layer hunwrap
    have hrest (r : Result Response) (w₁ : World ι ν) : N.ForwardsWithin (i, .node n)
        (acceptResponse (nextHopURL layer.nextHop) r >>= fun _ =>
          h.returnPath N.X key layer.nextHop r) w₁ 0 := by
      have hreturn := Handler.all_returnPath (R := fun _ => False) (X := N.X) hplain h key
        layer.nextHop r
      cases r with
      | error err => exact forwardsWithin_of_all 0 hreturn
      | ok resp => exact forwardsWithin_of_all 0 ⟨trivial, fun _ => hreturn⟩
    -- the line in the log, then the POST
    apply forwardsWithin_op
    intro _ w₁
    exact (endsWithin_rpc (hcall w₁) hrest).mono (by omega)

theorem forwardsWithin_handleOnion {h : Handler} {r : ServerRequest} {K : Nat}
    (hnext : ∀ req key layer, decodeStream OnionRequest.fields .zero r.body = some req →
      unwrapLayer N.X key req.payload = .ok layer →
      ∃ K', K = K' + 1 ∧ N.HopWithin (i, .node n) req.circuitID layer K') :
    N.ForwardsWithin (i, .node n) (h.handleOnion N.X r) w K := by
  have hplain : ∀ e : Effect, e.Plain → (fun _ : Effect => True) e := fun _ _ => trivial
  unfold Handler.handleOnion
  -- a refused request and a missing key end in an answer, without a forward
  by_cases hpost : r.method ≠ methodPost
  · rw [if_pos hpost]
    exact forwardsWithin_of_all (T := fun _ => True) K trivial
  rw [if_neg hpost]
  dsimp only
  cases hreq : decodeStream OnionRequest.fields OnionRequest.zero r.body with
  | none => exact forwardsWithin_of_all K (all_logError hplain (by decide))
  | some req =>
    dsimp only
    by_cases hempty : req.circuitID = [] ∨ req.payload = []
    · rw [if_pos hempty]
      exact forwardsWithin_of_all K (all_logError hplain (by decide))
    rw [if_neg hempty, perform_eq, Prog.op_bind]
    apply forwardsWithin_op
    intro key w₁
    cases key with
    | none => exact forwardsWithin_of_all K (all_logError hplain (by decide))
    | some key => exact forwardsWithin_peel fun layer hlayer => hnext req key layer hreq hlayer

/-- Every handler of every node, with any keys: the forwards a request
    leads to are no more than the octets of the payload it carries. The
    induction is on their number. -/
theorem forwardsWithin_handle (htag : N.X.TagLength) (m : Nat) :
    ∀ (n : ν) (endpoint : Endpoint) (r : ServerRequest) (w : World ι ν),
      (∀ req, decodeStream OnionRequest.fields .zero r.body = some req → req.payload.length ≤ m) →
      N.ForwardsWithin (i, .node n) (N.handle n endpoint r) w m := by
  have hplain : ∀ e : Effect, e.Plain → (fun _ : Effect => True) e := fun _ _ => trivial
  induction m using Nat.strong_induction_on with
  | _ m ih =>
    intro n endpoint r w hlen
    -- the inner payload is shorter, so it takes fewer forwards from there
    have hforward (h : Handler) : N.ForwardsWithin (i, .node n) (h.handleOnion N.X r) w m := by
      apply forwardsWithin_handleOnion
      intro req key layer hreq hlayer
      have hshorter := unwrapLayer_length htag hlayer
      have hle := hlen req hreq
      refine ⟨m - 1, by omega, ?_⟩
      intro w₁
      unfold Net.serve
      cases hroute : N.route (jsonPost (nextHopURL layer.nextHop)
          (OnionRequest.json ⟨req.circuitID, layer.payload⟩).encode).url with
      | none => exact forwardsWithin_of_all (T := fun _ => True) (m - 1) trivial
      | some target =>
        obtain ⟨n', endpoint'⟩ := target
        have hhandle (w₂ : World ι ν) := ih (m - 1) (by omega) n' endpoint'
          ⟨methodPost, N.remoteAddr (.node n),
            (OnionRequest.json ⟨req.circuitID, layer.payload⟩).encode⟩ w₂ (by
            intro req' hreq'
            rw [decode_onionRequest] at hreq'
            obtain rfl := Option.some.inj hreq'
            show layer.payload.length ≤ m - 1
            omega)
        apply forwardsWithin_op
        intro _ w₂
        exact endsWithin_bind (hhandle w₂) fun resp w₃ =>
          endsWithin_ret (a := (.ok resp : Result Response))
    -- the other endpoints forward nothing
    have hrest (hend : endpoint ≠ .onion) : N.ForwardsWithin (i, .node n)
        (N.handle n endpoint r) w m := by
      have hfoot : N.Footprint n endpoint r.body (fun _ => True) (fun _ => False) :=
        ⟨hplain, fun _ _ => trivial, fun _ _ _ => trivial, fun _ _ _ => trivial,
          fun _ _ _ _ _ _ _ _ => trivial, fun _ _ _ _ _ _ => trivial,
          fun h => absurd h hend⟩
      exact forwardsWithin_of_all m (Net.all_handle hfoot r.method r.remoteAddr)
    cases endpoint with
    | key => exact hrest (by decide)
    | setup => exact hrest (by decide)
    | onion =>
      unfold Net.handle
      cases N.role n with
      | guard => exact hforward _
      | relay => exact hforward _
      | exit =>
        exact forwardsWithin_of_all m
          (all_exitHandleOnion hplain r.method r.remoteAddr (fun _ => trivial) fun _ _ => trivial)

/-- A layer is longer than the payload it holds; so one POST of an onion
    with a payload of `c` octets returns and leads to at most `c` forwards,
    whatever nodes there are, finitely many or not, whatever keys they
    hold, and wherever the layers and the routes lead. -/
theorem onion_chains_end (htag : N.X.TagLength) :
    (∀ key ct layer, unwrapLayer N.X key ct = .ok layer → layer.payload.length < ct.length) ∧
    ∀ (i : ι) (n : ν) (r : ServerRequest) (req : OnionRequest) (w : World ι ν),
      decodeStream OnionRequest.fields .zero r.body = some req →
        (∃ resp w' k, N.Forwards (i, .node n) (N.handle n .onion r) w resp w' k) ∧
        ∀ resp w' k, N.Forwards (i, .node n) (N.handle n .onion r) w resp w' k →
          k ≤ req.payload.length := by
  refine ⟨fun key ct layer hlayer => unwrapLayer_length htag hlayer, ?_⟩
  intro i n r req w hreq
  obtain ⟨resp, w', k, hrun, hle⟩ := forwardsWithin_handle (i := i) htag req.payload.length n
    .onion r w (by
      intro req' hreq'
      rw [hreq] at hreq'
      obtain rfl := Option.some.inj hreq'
      exact le_rfl)
  refine ⟨⟨resp, w', k, hrun⟩, ?_⟩
  intro resp' w'' k' hrun'
  obtain ⟨-, -, rfl⟩ := hrun.unique hrun'
  exact hle

end

namespace Sample

/-- A stand-in for AES-GCM whose tag is 16 zeros behind the plaintext. -/
def tagged : Externals :=
  { externals with
    gcmSeal _ _ plaintext := plaintext ++ List.replicate tagSize 0
    gcmOpen _ _ data := if tagSize ≤ data.length then some (data.take (data.length - tagSize)) else none }

theorem tagged_tagLength : tagged.TagLength := by
  intro key nonce data plaintext h
  have h : (if tagSize ≤ data.length then some (data.take (data.length - tagSize)) else none) =
    some plaintext := h
  by_cases hlen : tagSize ≤ data.length
  · rw [if_pos hlen] at h
    obtain rfl := Option.some.inj h
    rw [List.length_take]
    omega
  · rw [if_neg hlen] at h
    cases h

/-- Relays only, and every address leads back to the same one. -/
def ring : Net Node :=
  { net with
    X := tagged
    role _ := .relay
    route _ := some (.relay, .onion) }

/-- An onion whose layer names the node it is posted to. -/
def ringRequest : OnionRequest :=
  ⟨lit "c1", List.replicate nonceSize 0 ++
    tagged.gcmSeal (List.replicate 32 7) [] (Layer.json ⟨lit "r", [1, 2, 3]⟩).encode⟩

/-- The relay holds a key for every circuit. -/
def keyed : World Unit Node := { start with keys _ _ := some (List.replicate 32 7) }

end Sample

theorem onion_chains_end_sample : ∃ resp w' k,
    Sample.ring.Forwards ((), .node .relay) (Sample.ring.handle .relay .onion
      ⟨methodPost, lit "c", Sample.ringRequest.json.encode⟩) Sample.keyed resp w' k ∧
    k ≤ Sample.ringRequest.payload.length := by
  have hreq : decodeStream OnionRequest.fields .zero Sample.ringRequest.json.encode =
      some ⟨Utf8.toValid (lit "c1"), Sample.ringRequest.payload⟩ := decode_onionRequest _
  obtain ⟨⟨resp, w', k, hrun⟩, hle⟩ := (onion_chains_end (N := Sample.ring) (ι := Unit)
    Sample.tagged_tagLength).2 () .relay ⟨methodPost, lit "c", _⟩ _ Sample.keyed hreq
  exact ⟨resp, w', k, hrun, hle resp w' k hrun⟩

end HopVault
