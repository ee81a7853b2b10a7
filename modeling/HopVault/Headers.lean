import HopVault.Building
import HopVault.Sample
import HopVault.Framework.Path

/-! # Headers out and back

    The headers of a request to the destination come out of a map, in
    whatever order Go ranges over it, and are stored under the canonical
    form of their names. Of the headers of the answer the first value of
    each name comes back to the client. -/

namespace HopVault

open Framework Framework.Json Framework.Prog Framework.Utf8

section

variable {X : Externals} {layer : ExitLayer}

/-! ## Out -/

variable (X) in
/-- In some run the exit sends this request for the layer. -/
def Sends (layer : ExitLayer) (dest : DestRequest) : Prop :=
  ∃ τ result out, Path (executeExitRequest X layer) τ result ∧ .op (.clientDo dest) out ∈ τ

/-- Names that are the same to HTTP have the same value. -/
def HeadersAgree (headers : SortedMap Bytes Bytes) : Prop :=
  ∀ e ∈ headers.entries, ∀ e' ∈ headers.entries,
    canonicalHeaderKey e.1 = canonicalHeaderKey e'.1 → e.2 = e'.2

/-- The requests the exit may send: one for each order of the headers. -/
theorem sends_iff {dest : DestRequest} : Sends X layer dest ↔
    X.newRequest layer.method layer.url = .ok () ∧
      ∃ order, order.Perm layer.headers.entries ∧ dest = destRequest layer order := by
  unfold Sends executeExitRequest
  -- a request that cannot be built is not sent
  cases hbuild : X.newRequest layer.method layer.url with
  | error err =>
    constructor
    · intro h
      obtain ⟨τ, result, out, hpath, hmem⟩ := h
      obtain ⟨rfl, -⟩ := path_ret.mp hpath
      cases hmem
    · intro h
      cases h.1
  | ok u =>
    constructor
    · intro h
      obtain ⟨τ, result, out, hpath, hmem⟩ := h
      obtain ⟨order, τ₁, rfl, hdo⟩ := path_op.mp hpath
      obtain ⟨answer, τ₂, rfl, hout⟩ := path_op.mp hdo
      -- nothing is sent after the answer
      have hnil : τ₂ = [] := by
        cases answer <;> exact (path_ret.mp hout).1
      rw [hnil] at hmem
      simp at hmem
      exact ⟨rfl, order.1, order.2, hmem.1⟩
    · intro h
      obtain ⟨-, order, horder, rfl⟩ := h
      let τ : List (Interaction Effects) := [.op (.range layer.headers) ⟨order, horder⟩,
        .op (.clientDo (destRequest layer order)) (.unreachable [])]
      exact ⟨τ, _, _, .op (.op .ret), .tail _ (.head _)⟩

/-- The last header of a name is the one that is sent. -/
theorem get?_setHeaders_append (order : List (Bytes × Bytes)) (e : Bytes × Bytes) :
    (setHeaders (order ++ [e])).get? (canonicalHeaderKey e.1) = some e.2 := by
  unfold setHeaders
  rw [List.foldl_append, List.foldl_cons, List.foldl_nil, SortedMap.get?_insert, if_pos rfl]

/-- Any header can be the last one. -/
theorem perm_erase_append {l : List (Bytes × Bytes)} {e : Bytes × Bytes} (h : e ∈ l) :
    (l.erase e ++ [e]).Perm l :=
  List.perm_append_comm.trans (List.perm_cons_erase h).symm

/-- **One request for a layer**: what the exit sends is the same in every
    order of the headers exactly if it sends nothing, or names that are the
    same to HTTP have the same value. -/
theorem request_order_free : (∀ dest dest', Sends X layer dest → Sends X layer dest' → dest = dest') ↔
    (∃ err, X.newRequest layer.method layer.url = .error err) ∨ HeadersAgree layer.headers := by
  constructor
  · intro hsame
    cases hbuild : X.newRequest layer.method layer.url with
    | error err => exact .inl ⟨err, rfl⟩
    | ok u =>
      right
      intro e he e' he' hkey
      have hsent {e : Bytes × Bytes} (he : e ∈ layer.headers.entries) :
          Sends X layer (destRequest layer (layer.headers.entries.erase e ++ [e])) :=
        sends_iff.mpr ⟨hbuild, _, perm_erase_append he, rfl⟩
      -- each of the two entries may be the last
      have heq := congrArg DestRequest.headers (hsame _ _ (hsent he) (hsent he'))
      have hvalue := get?_setHeaders_append (layer.headers.entries.erase e) e
      have hvalue' := get?_setHeaders_append (layer.headers.entries.erase e') e'
      have hheaders : setHeaders (layer.headers.entries.erase e ++ [e]) =
          setHeaders (layer.headers.entries.erase e' ++ [e']) := heq
      rw [hheaders, hkey, hvalue'] at hvalue
      exact (Option.some.inj hvalue).symm
  · intro h dest dest' hsent hsent'
    obtain ⟨hbuild, order, horder, rfl⟩ := sends_iff.mp hsent
    obtain ⟨-, order', horder', rfl⟩ := sends_iff.mp hsent'
    rcases h with ⟨err, herr⟩ | hagree
    · rw [hbuild] at herr
      cases herr
    · have hheaders : setHeaders order = setHeaders order' := by
        -- entries that agree may be written in any order
        apply SortedMap.foldl_insert_perm_of_agree (fun e : Bytes × Bytes => canonicalHeaderKey e.1)
          Prod.snd (horder.trans horder'.symm)
        intro e he e' he'
        exact hagree e (horder.mem_iff.mp he) e' (horder.mem_iff.mp he')
      unfold destRequest
      rw [hheaders]

end

namespace Sample

/-- A sender's headers, with one name in two spellings. -/
def spelledTwice : ExitLayer :=
  { layer with headers := SortedMap.ofList [(lit "X-A", lit "1"), (lit "x-a", lit "2")] }

end Sample

/-- A header that is spelled in two ways is sent with either value. -/
theorem request_order_shows :
    unmarshal ExitLayer.fields .zero Sample.spelledTwice.json.encode = some Sample.spelledTwice ∧
    ∃ dest dest', Sends Sample.externals Sample.spelledTwice dest ∧
      Sends Sample.externals Sample.spelledTwice dest' ∧
      dest.headers.get? (lit "X-A") = some (lit "1") ∧
      dest'.headers.get? (lit "X-A") = some (lit "2") := by
  constructor
  · have htext : Sample.spelledTwice.coerced = Sample.spelledTwice := by decide +kernel
    rw [unmarshal_exitLayer, htext]
  · have hsent (order : List (Bytes × Bytes)) (h : order.Perm Sample.spelledTwice.headers.entries) :
        Sends Sample.externals Sample.spelledTwice (destRequest Sample.spelledTwice order) :=
      sends_iff.mpr ⟨rfl, order, h, rfl⟩
    refine ⟨_, _, hsent [(lit "x-a", lit "2"), (lit "X-A", lit "1")] (by decide +kernel),
      hsent [(lit "X-A", lit "1"), (lit "x-a", lit "2")] (by decide +kernel), ?_, ?_⟩
    · decide +kernel
    · decide +kernel

section

variable {X : Externals} {keys : SessionKeys} {resp : DestResponse} {payload : Bytes} {hops : Int}

/-! ## Back -/

/-- The texts of the header are well-formed. -/
def DestResponse.Text (resp : DestResponse) : Prop :=
  ∀ e ∈ resp.header.entries, Valid e.1 ∧ ∀ v ∈ e.2, Valid v

/-- The first value of a header. -/
def DestResponse.firstValue (resp : DestResponse) (name : Bytes) : Option Bytes :=
  (resp.header.get? name).bind List.head?

variable (X) in
/-- The exit has encrypted the response, and each hop before it has put its
    layer around that. -/
def Returned (keys : SessionKeys) (resp : ExitResponse) (hops : Int) (payload : Bytes) : Prop :=
  if hops = 3 then
    ∃ exitCT relayCT, Yields (encryptExitResponse X keys.exitKey resp) (.ok exitCT) ∧
      Yields (encrypt X keys.relayKey exitCT) (.ok relayCT) ∧
      Yields (encrypt X keys.guardKey relayCT) (.ok payload)
  else Yields (encryptExitResponse X keys.guardKey resp) (.ok payload)

/-- The client peels off what was put around, and reads the response. -/
theorem decryptResponse_returned (hX : X.LawfulAEAD) (hhops : hops = 1 ∨ hops = 3)
    {resp : ExitResponse} (h : Returned X keys resp hops payload) :
    decryptResponseWithHops X keys payload hops = .ok resp.coerced := by
  unfold Returned at h
  rcases hhops with rfl | rfl
  · rw [if_neg (by decide)] at h
    exact decryptResponse_one (decrypt_of_encryptExitResponse hX h)
  · rw [if_pos rfl] at h
    obtain ⟨exitCT, relayCT, hexit, hrelay, hguard⟩ := h
    exact decryptResponse_three (decrypt_of_yields hX hguard) (decrypt_of_yields hX hrelay)
      (decrypt_of_encryptExitResponse hX hexit)

/-- The entries that come back are those with a value. -/
theorem entries_firstValues (header : SortedMap Bytes (List Bytes)) :
    (firstValues header).entries =
      header.entries.filterMap fun e => e.2.head?.map fun v => (e.1, v) := by
  apply SortedMap.entries_ofList
  apply header.sorted.filterMap
  intro e e' hlt a ha a' ha'
  obtain ⟨v, -, rfl⟩ := Option.map_eq_some_iff.mp ha
  obtain ⟨v', -, rfl⟩ := Option.map_eq_some_iff.mp ha'
  exact hlt

/-- What comes back under a name is the first value of that name. -/
theorem get?_exitResponse (resp : DestResponse) (name : Bytes) :
    (exitResponse resp).headers.get? name = resp.firstValue name := by
  apply Option.ext
  intro v
  rw [DestResponse.firstValue, Option.bind_eq_some_iff]
  show (firstValues resp.header).get? name = some v ↔ _
  rw [SortedMap.get?_eq_some, entries_firstValues, List.mem_filterMap]
  constructor
  · intro h
    obtain ⟨e, he, hv⟩ := h
    obtain ⟨v', hv', heq⟩ := Option.map_eq_some_iff.mp hv
    cases heq
    exact ⟨e.2, SortedMap.get?_eq_some.mpr he, hv'⟩
  · intro h
    obtain ⟨vals, hvals, hv⟩ := h
    exact ⟨(name, vals), SortedMap.get?_eq_some.mp hvals, by rw [hv]; rfl⟩

/-- Well-formed text comes back as it was. -/
theorem coerced_exitResponse (h : resp.Text) : (exitResponse resp).coerced = exitResponse resp := by
  unfold ExitResponse.coerced
  rw [coercedMap_of_valid]
  intro e he
  have he : e ∈ (firstValues resp.header).entries := he
  rw [entries_firstValues, List.mem_filterMap] at he
  obtain ⟨e', he', hmap⟩ := he
  obtain ⟨v, hv, rfl⟩ := Option.map_eq_some_iff.mp hmap
  exact ⟨(h e' he').1, (h e' he').2 v (List.mem_of_mem_head? hv)⟩

/-- Responses are told apart by status, body and first values. -/
theorem exitResponse_eq_iff {resp resp' : DestResponse} : exitResponse resp = exitResponse resp' ↔
    resp.statusCode = resp'.statusCode ∧ resp.body = resp'.body ∧
      ∀ name, resp.firstValue name = resp'.firstValue name := by
  constructor
  · intro h
    refine ⟨congrArg ExitResponse.statusCode h, congrArg ExitResponse.body h, ?_⟩
    intro name
    rw [← get?_exitResponse, h, get?_exitResponse]
  · intro h
    obtain ⟨hstatus, hbody, hfirst⟩ := h
    have hheaders : firstValues resp.header = firstValues resp'.header := by
      apply SortedMap.ext_get?
      intro name
      have hname := get?_exitResponse resp name
      rw [hfirst name, ← get?_exitResponse resp' name] at hname
      exact hname
    unfold exitResponse
    rw [hstatus, hbody, hheaders]

/-- **First values come back**: what the client recovers is the status, the
    body, and under each name the first value the destination sent; so two
    destination responses give it the same response exactly if they agree
    in these. -/
theorem first_values_recovered (hX : X.LawfulAEAD) :
    (∀ keys hops resp payload, hops = 1 ∨ hops = 3 → DestResponse.Text resp →
      Returned X keys (exitResponse resp) hops payload →
      ∃ answer, decryptResponseWithHops X keys payload hops = .ok answer ∧
        answer.statusCode = resp.statusCode ∧ answer.body = resp.body ∧
        ∀ name, answer.headers.get? name = resp.firstValue name) ∧
    ∀ keys keys' hops hops' resp resp' payload payload', hops = 1 ∨ hops = 3 → hops' = 1 ∨ hops' = 3 →
      DestResponse.Text resp → DestResponse.Text resp' →
      Returned X keys (exitResponse resp) hops payload →
      Returned X keys' (exitResponse resp') hops' payload' →
      (decryptResponseWithHops X keys payload hops = decryptResponseWithHops X keys' payload' hops' ↔
        resp.statusCode = resp'.statusCode ∧ resp.body = resp'.body ∧
          ∀ name, resp.firstValue name = resp'.firstValue name) := by
  constructor
  · intro keys hops resp payload hhops htext hreturned
    have hanswer := decryptResponse_returned hX hhops hreturned
    rw [coerced_exitResponse htext] at hanswer
    exact ⟨_, hanswer, rfl, rfl, get?_exitResponse resp⟩
  · intro keys keys' hops hops' resp resp' payload payload' hhops hhops' htext htext' hret hret'
    rw [decryptResponse_returned hX hhops hret, decryptResponse_returned hX hhops' hret',
      coerced_exitResponse htext, coerced_exitResponse htext', ← exitResponse_eq_iff]
    constructor
    · intro h
      exact Except.ok.inj h
    · intro h
      rw [h]

end

namespace Sample

/-- A destination that sets these cookies. -/
def cookies (vals : List Bytes) : DestResponse :=
  ⟨200, SortedMap.ofList [(lit "Set-Cookie", vals)], lit "ok"⟩

theorem text_cookies {vals : List Bytes} (h : ∀ v ∈ vals, Valid v) : (cookies vals).Text := by
  have hname : Valid (lit "Set-Cookie") := by
    show toValid _ = _
    decide +kernel
  have hentries : (cookies vals).header.entries = [(lit "Set-Cookie", vals)] := rfl
  intro e he
  rw [hentries, List.mem_singleton] at he
  rw [he]
  exact ⟨hname, h⟩

theorem firstValue_cookies (v : Bytes) (vs : List Bytes) (name : Bytes) :
    (cookies (v :: vs)).firstValue name = if name = lit "Set-Cookie" then some v else none := by
  show ((SortedMap.empty.insert (lit "Set-Cookie") (v :: vs)).get? name).bind List.head? = _
  rw [SortedMap.get?_insert]
  split_ifs <;> rfl

theorem valid_cookie {v : Bytes} (h : v = lit "a=1" ∨ v = lit "b=2") : Valid v := by
  show toValid _ = _
  rcases h with rfl | rfl <;> decide +kernel

theorem returned_one (resp : ExitResponse) :
    Returned externals keys resp 1 (sealed keys.guardKey resp.json.encode) := by
  unfold Returned encryptExitResponse
  rw [if_neg (by decide)]
  exact yields_bind.mpr ⟨_, yields_encrypt rfl _, .ret⟩

theorem returned_three (resp : ExitResponse) :
    Returned externals keys resp 3 (sealed keys.guardKey (sealed keys.relayKey
      (sealed keys.exitKey resp.json.encode))) := by
  unfold Returned encryptExitResponse
  rw [if_pos rfl]
  refine ⟨sealed keys.exitKey resp.json.encode, sealed keys.relayKey _, ?_, yields_encrypt rfl _,
    yields_encrypt rfl _⟩
  exact yields_bind.mpr ⟨_, yields_encrypt rfl _, .ret⟩

theorem text_onetwo : (cookies [lit "a=1", lit "b=2"]).Text :=
  text_cookies fun _ hv => valid_cookie (by simpa using hv)

theorem text_one : (cookies [lit "a=1"]).Text :=
  text_cookies fun _ hv => valid_cookie (.inl (List.mem_singleton.mp hv))

theorem text_two : (cookies [lit "b=2"]).Text :=
  text_cookies fun _ hv => valid_cookie (.inr (List.mem_singleton.mp hv))

end Sample

/-- Of two cookies the first comes back through three hops. The answer is
    that of one hop to the first cookie alone, not to the second. -/
theorem first_values_recovered_sample : ∃ payload three one two,
    Returned Sample.externals Sample.keys
      (exitResponse (Sample.cookies [lit "a=1", lit "b=2"])) 3 payload ∧
    decryptResponseWithHops Sample.externals Sample.keys payload 3 = three ∧
    decryptResponseWithHops Sample.externals Sample.keys (Sample.sealed Sample.keys.guardKey
      (exitResponse (Sample.cookies [lit "a=1"])).json.encode) 1 = one ∧
    decryptResponseWithHops Sample.externals Sample.keys (Sample.sealed Sample.keys.guardKey
      (exitResponse (Sample.cookies [lit "b=2"])).json.encode) 1 = two ∧
    (∃ answer, three = .ok answer ∧ answer.statusCode = 200 ∧ answer.body = lit "ok" ∧
      answer.headers.get? (lit "Set-Cookie") = some (lit "a=1")) ∧
    three = one ∧ three ≠ two := by
  have hreturned := Sample.returned_three (exitResponse (Sample.cookies [lit "a=1", lit "b=2"]))
  obtain ⟨hrecovers, hagrees⟩ := first_values_recovered Sample.lawfulAEAD
  obtain ⟨answer, hanswer, hstatus, hbody, hheaders⟩ := hrecovers _ 3 _ _ (.inr rfl)
    Sample.text_onetwo hreturned
  refine ⟨_, _, _, _, hreturned, rfl, rfl, rfl, ⟨answer, hanswer, hstatus, hbody, ?_⟩, ?_, ?_⟩
  · rw [hheaders, Sample.firstValue_cookies, if_pos rfl]
  · refine (hagrees _ _ 3 1 _ _ _ _ (.inr rfl) (.inl rfl) Sample.text_onetwo Sample.text_one
      hreturned (Sample.returned_one _)).mpr ⟨rfl, rfl, fun name => ?_⟩
    rw [Sample.firstValue_cookies, Sample.firstValue_cookies]
  · intro heq
    obtain ⟨-, -, hsame⟩ := (hagrees _ _ 3 1 _ _ _ _ (.inr rfl) (.inl rfl) Sample.text_onetwo
      Sample.text_two hreturned (Sample.returned_one _)).mp heq
    have hcookie := hsame (lit "Set-Cookie")
    rw [Sample.firstValue_cookies, Sample.firstValue_cookies, if_pos rfl, if_pos rfl,
      Option.some.injEq] at hcookie
    revert hcookie
    decide

/-- A second cookie is lost: with it and without it the client gets the
    same response. -/
theorem second_value_lost : ∃ resp resp' payload payload' answer,
    resp.Text ∧ resp'.Text ∧ resp.header.get? (lit "Set-Cookie") = some [lit "a=1"] ∧
    resp'.header.get? (lit "Set-Cookie") = some [lit "a=1", lit "b=2"] ∧
    Returned Sample.externals Sample.keys (exitResponse resp) 1 payload ∧
    Returned Sample.externals Sample.keys (exitResponse resp') 1 payload' ∧
    decryptResponseWithHops Sample.externals Sample.keys payload 1 = .ok answer ∧
    decryptResponseWithHops Sample.externals Sample.keys payload' 1 = .ok answer := by
  have hsame : exitResponse (Sample.cookies [lit "a=1", lit "b=2"]) =
      exitResponse (Sample.cookies [lit "a=1"]) := by decide +kernel
  have hreturned := Sample.returned_one (exitResponse (Sample.cookies [lit "a=1"]))
  have hanswer := decryptResponse_returned Sample.lawfulAEAD (.inl rfl) hreturned
  exact ⟨Sample.cookies [lit "a=1"], Sample.cookies [lit "a=1", lit "b=2"], _, _, _,
    Sample.text_one, Sample.text_onetwo, rfl, rfl, hreturned, by rw [hsame]; exact hreturned, hanswer,
    hanswer⟩

end HopVault
