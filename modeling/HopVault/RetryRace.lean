import HopVault.AtMostOnce

/-! # Set-up messages of earlier attempts

    All attempts of a call use one circuit ID, and a node keeps the key it
    stored last. A set-up message that is delivered after its client gave
    it up therefore replaces the key of the attempt that is under way. In
    every interleaving that is all that can happen to the keys of an
    attempt: a node of its circuit holds the key of the attempt, or one
    that was posted to it before and reached it late. -/

namespace HopVault

open Framework Framework.Json Framework.Utf8

variable {ι ν : Type} [DecidableEq ι] [DecidableEq ν]

/-- What others may do meanwhile: anything that is not done for call `i`
    and leaves the keys under its circuit ID alone. -/
def OthersAvoid (i : ι) (circuitID : Bytes) (w w' : World ι ν) : Prop :=
  (∀ n, w'.keys n (toValid circuitID) = w.keys n (toValid circuitID)) ∧
    w'.stores i = w.stores i ∧ w'.journal i = w.journal i

/-! ## The key stored last -/

/-- The key stored last at node `n`. -/
def lastStored (n : ν) : List (ν × Bytes × Bytes) → Option Bytes
  | [] => none
  | e :: rest => (lastStored n rest).or (if e.1 = n then some e.2.2 else none)

theorem lastStored_append (n : ν) (l l' : List (ν × Bytes × Bytes)) :
    lastStored n (l ++ l') = (lastStored n l').or (lastStored n l) := by
  induction l with
  | nil => simp [lastStored]
  | cons e rest ih => rw [List.cons_append, lastStored, lastStored, ih, Option.or_assoc]

/-- It is among the stored keys. -/
theorem mem_of_lastStored {n : ν} {l : List (ν × Bytes × Bytes)} {k : Bytes}
    (h : lastStored n l = some k) : ∃ c, (n, c, k) ∈ l := by
  induction l with
  | nil => cases h
  | cons e rest ih =>
    rw [lastStored] at h
    rcases Option.or_eq_some_iff.mp h with h | ⟨-, h⟩
    · obtain ⟨c, hc⟩ := ih h
      exact ⟨c, List.mem_cons_of_mem _ hc⟩
    · split_ifs at h with hn
      obtain rfl := Option.some.inj h
      exact ⟨e.2.1, by rw [← hn]; exact List.mem_cons_self⟩

theorem lastStored_eq_none {n : ν} {l : List (ν × Bytes × Bytes)} (h : ∀ x ∈ l, x.1 ≠ n) :
    lastStored n l = none := by
  cases hlast : lastStored n l with
  | none => rfl
  | some k =>
    obtain ⟨c, hmem⟩ := mem_of_lastStored hlast
    exact absurd rfl (h _ hmem)

/-- A key that was stored is still the last one, or another came after. -/
theorem lastStored_of_split {n : ν} {c k : Bytes} {before after : List (ν × Bytes × Bytes)} :
    lastStored n (before ++ (n, c, k) :: after) = some k ∨
      ∃ c' k', (n, c', k') ∈ after ∧ lastStored n (before ++ (n, c, k) :: after) = some k' := by
  rw [lastStored_append, lastStored, if_pos rfl]
  cases h : lastStored n after with
  | none => exact .inl rfl
  | some k' =>
    obtain ⟨c', hmem⟩ := mem_of_lastStored h
    exact .inr ⟨c', k', hmem, rfl⟩

/-! ## What holds throughout a call -/

/-- The node at a URL has stored the key posted to it. -/
def StoredAt (N : Net ν) (i : ι) (circuitID : Bytes) (w : World ι ν) (e : Bytes × Bytes) : Prop :=
  ∃ n, N.route (e.1 ++ lit "/setup") = some (n, .setup) ∧
    (n, toValid circuitID, e.2) ∈ w.stores i

/-- In attempt `a` the client has posted the key to the node. -/
def PostedTo (N : Net ν) (i : ι) (w : World ι ν) (n : ν) (a : Nat) (url key : Bytes) : Prop :=
  (a, url, key) ∈ (w.journal i).posted ∧ N.route (url ++ lit "/setup") = some (n, .setup)

/-- Nodes store only what the client posted to them, and hold what they
    stored last; what an established attempt has posted is what it was
    established with, and has been stored. -/
structure RaceInv (N : Net ν) (i : ι) (circuitID : Bytes) (w : World ι ν) : Prop where
  stored : ∀ n c k, (n, c, k) ∈ w.stores i →
    c = toValid circuitID ∧ ∃ a url, PostedTo N i w n a url k
  last : ∀ n k, lastStored n (w.stores i) = some k → w.keys n (toValid circuitID) = some k
  attempts : ∀ e ∈ (w.journal i).posted, e.1 ≤ (w.journal i).attempt
  current : ∀ ks, (w.journal i).established = some ks →
    (∀ e ∈ (w.journal i).posted, e.1 = (w.journal i).attempt → e.2 ∈ ks) ∧
      ∀ e ∈ ks, StoredAt N i circuitID w e

/-- A key has been overtaken at a node: one has reached the node later, from
    an earlier attempt of the call or for another hop of the same circuit,
    and the node holds the one that was delivered to it last. -/
def Overtaken (N : Net ν) (i : ι) (w : World ι ν) (n : ν) (circuitID : Bytes)
    (ks : List (Bytes × Bytes)) (e : Bytes × Bytes) : Prop :=
  ∃ before after a url key, w.stores i = before ++ (n, toValid circuitID, e.2) :: after ∧
    (n, toValid circuitID, key) ∈ after ∧ PostedTo N i w n a url key ∧
    (a < (w.journal i).attempt ∨ ((url, key) ∈ ks ∧ (url, key) ≠ e)) ∧
    lastStored n (w.stores i) = some key ∧ w.keys n (toValid circuitID) = some key

variable {N : Net ν} {i : ι} {circuitID : Bytes}

omit [DecidableEq ι] in
/-- What the invariant says about an established attempt. -/
theorem RaceInv.held_or_overtaken {w : World ι ν} (h : RaceInv N i circuitID w)
    {ks : List (Bytes × Bytes)} (hks : (w.journal i).established = some ks) {e : Bytes × Bytes}
    (he : e ∈ ks) : ∃ n, N.route (e.1 ++ lit "/setup") = some (n, .setup) ∧
      (w.keys n (toValid circuitID) = some e.2 ∨ Overtaken N i w n circuitID ks e) := by
  obtain ⟨hposted, hstored⟩ := h.current ks hks
  obtain ⟨n, hroute, hmem⟩ := hstored e he
  refine ⟨n, hroute, ?_⟩
  -- the key was stored here; whatever came later is either the same or overtakes it
  obtain ⟨before, after, hsplit⟩ := List.append_of_mem hmem
  have hsplits : lastStored n (before ++ (n, toValid circuitID, e.2) :: after) = some e.2 ∨
      ∃ c key, (n, c, key) ∈ after ∧
        lastStored n (before ++ (n, toValid circuitID, e.2) :: after) = some key :=
    lastStored_of_split
  rcases hsplits with hlast | ⟨c, key, hkey, hlast⟩
  · exact .inl (h.last n e.2 (hsplit ▸ hlast))
  · have hheld := h.last n key (hsplit ▸ hlast)
    have hstore : (n, c, key) ∈ w.stores i := by
      rw [hsplit]
      exact List.mem_append_right _ (List.mem_cons_of_mem _ hkey)
    obtain ⟨rfl, a, url, hpost⟩ := h.stored n c key hstore
    by_cases hsame : (url, key) = e
    · obtain rfl := hsame
      exact .inl hheld
    · refine .inr ⟨before, after, a, url, key, hsplit, hkey, hpost, ?_, hsplit ▸ hlast, hheld⟩
      -- a later store is of an earlier attempt, or of another post of this one
      rcases Nat.lt_or_eq_of_le (h.attempts _ hpost.1) with hlt | heq
      · exact .inl hlt
      · exact .inr ⟨hposted _ hpost.1 heq, hsame⟩

/-! ## What programs rely on -/

/-- A node that handles the body as a set-up request stores this key. -/
def Delivers (N : Net ν) (n : ν) (body c key : Bytes) : Prop :=
  ∃ r ct, decodeStream KeySetupRequest.fields .zero body = some r ∧ r.circuitID = c ∧
    r.encryptedKey ≠ [] ∧ Base64.decode r.encryptedKey = some ct ∧
    N.X.decryptOAEP (N.priv n) ct = .ok key

/-- The only keys a request made for the call brings are keys the client
    has posted. -/
structure BringsPosted (N : Net ν) (i : ι) (circuitID : Bytes) (w : World ι ν) (q : Post) :
    Prop where
  setup : ∀ n c key, N.route q.url = some (n, .setup) → Delivers N n q.body c key →
    c = toValid circuitID ∧ ∃ a url, PostedTo N i w n a url key
  key : ∀ r, decodeStream KeyRequest.fields .zero q.body = some r → r.key = []

/-- Stored and posted keys stay so, and only the client writes its own
    journal; a set-up request is answered with 204 only when its key has
    been stored. -/
def raceRely (N : Net ν) (i : ι) (circuitID : Bytes) : Rely (N.asynchronous (ι := ι)) where
  le ℓ v w := v.stores i <+: w.stores i ∧ (v.journal i).posted <+: (w.journal i).posted ∧
    (ℓ = (i, .client) → w.journal i = v.journal i)
  shared ℓ := ℓ ≠ (i, .client)
  inv := RaceInv N i circuitID
  pre ℓ q w := ℓ.1 = i ∧ BringsPosted N i circuitID w q
  post _ q _ r w := ∀ resp, r = .ok resp → resp.statusCode = statusNoContent →
    ∃ n c key, N.route q.url = some (n, .setup) ∧ Delivers N n q.body c key ∧
      (n, c, key) ∈ w.stores i

theorem raceRely_ordered : (raceRely N i circuitID).Ordered where
  refl _ _ := ⟨List.prefix_rfl, List.prefix_rfl, fun _ => rfl⟩
  trans h₁ h₂ := ⟨h₁.1.trans h₂.1, h₁.2.1.trans h₂.2.1,
    fun hℓ => (h₂.2.2 hℓ).trans (h₁.2.2 hℓ)⟩

omit [DecidableEq ι] in
/-- A step that leaves all of this alone. -/
theorem RaceInv.avoid {w w' : World ι ν} (h : RaceInv N i circuitID w)
    (hs : OthersAvoid i circuitID w w') : RaceInv N i circuitID w' := by
  obtain ⟨hkeys, hstores, hjournal⟩ := hs
  refine ⟨?_, ?_, ?_, ?_⟩
  · unfold PostedTo
    rw [hstores, hjournal]
    exact h.stored
  · intro n k hk
    rw [hkeys n]
    exact h.last n k (hstores ▸ hk)
  · rw [hjournal]
    exact h.attempts
  · unfold StoredAt
    rw [hjournal, hstores]
    exact h.current

theorem raceRely_avoid {w w' : World ι ν} (hs : OthersAvoid i circuitID w w') (ℓ : Loc ι ν) :
    (raceRely N i circuitID).le ℓ w w' :=
  ⟨hs.2.1 ▸ List.prefix_rfl, hs.2.2 ▸ List.prefix_rfl, fun _ => hs.2.2⟩

/-- An operation that stores no key and records no progress. -/
def Effect.Calm : Effect → Prop
  | .keysStore _ _ => False
  | .mark _ => False
  | _ => True

theorem Effect.Plain.calm {e : Effect} (he : e.Plain) : e.Calm := by
  cases e <;> trivial

theorem avoid_act {e : Effect} (he : e.Calm) (ℓ : Loc ι ν) (w : World ι ν) :
    OthersAvoid i circuitID w (World.act ℓ e w).2 := by
  cases e with
  | keysStore c k => cases he
  | mark m => cases he
  | accept ep a b =>
    obtain ⟨j, p⟩ := ℓ
    cases p <;> exact ⟨fun _ => rfl, rfl, rfl⟩
  | _ => exact ⟨fun _ => rfl, rfl, rfl⟩

section

variable {ℓ : Loc ι ν} {w : World ι ν} {α : Type} {Q : World ι ν → α → Prop}

/-- An operation that is calm. -/
theorem race_calm {e : Effect} {k : e.Ans → Go α} (he : e.Calm)
    (hk : ∀ x w', (raceRely N i circuitID).le ℓ w w' → RaceInv N i circuitID w' →
      (raceRely N i circuitID).Ok ℓ (k x) Q w') :
    (raceRely N i circuitID).Ok ℓ (.op e k) Q w := by
  intro w' hle hinv
  have hs : OthersAvoid i circuitID w' (World.act ℓ e w').2 := avoid_act he ℓ w'
  exact ⟨fun ℓ' _ => raceRely_avoid hs ℓ', hinv.avoid hs,
    hk _ _ (raceRely_ordered.trans hle (raceRely_avoid hs ℓ)) (hinv.avoid hs)⟩

/-! ## Nodes -/

omit [DecidableEq ι] in
/-- A node stores a key that was posted to it. -/
theorem RaceInv.store {w w' : World ι ν} (h : RaceInv N i circuitID w) {n : ν} {a : Nat}
    {url key : Bytes} (hpost : PostedTo N i w n a url key)
    (hkeys : w'.keys = Function.update w.keys n
      (Function.update (w.keys n) (toValid circuitID) (some key)))
    (hstores : w'.stores i = w.stores i ++ [(n, toValid circuitID, key)])
    (hjournal : w'.journal i = w.journal i) : RaceInv N i circuitID w' := by
  refine ⟨fun m c x hx => ?_, fun m x hx => ?_, hjournal ▸ h.attempts, fun ks hks => ?_⟩
  · unfold PostedTo
    rw [hjournal]
    rw [hstores] at hx
    rcases List.mem_append.mp hx with hx | hx
    · exact h.stored m c x hx
    · obtain ⟨rfl, rfl, rfl⟩ : m = n ∧ c = toValid circuitID ∧ x = key := by simpa using hx
      exact ⟨rfl, a, url, hpost⟩
  · -- the key stored now is the last one at this node
    rw [hstores, lastStored_append] at hx
    rw [hkeys]
    by_cases hm : m = n
    · subst hm
      rw [Function.update_self, Function.update_self]
      simpa [lastStored] using hx
    · rw [Function.update_of_ne hm]
      refine h.last m x ?_
      simpa [lastStored, Ne.symm hm] using hx
  · rw [hjournal] at hks ⊢
    obtain ⟨hcurrent, hstored⟩ := h.current ks hks
    refine ⟨hcurrent, fun e he => ?_⟩
    obtain ⟨m, hroute, hmem⟩ := hstored e he
    exact ⟨m, hroute, hstores ▸ List.mem_append_left _ hmem⟩

theorem race_keysStore {n : ν} {a : Nat} {url key : Bytes} {k : Unit → Go α}
    (hpost : PostedTo N i w n a url key)
    (hk : ∀ w', (n, toValid circuitID, key) ∈ w'.stores i →
      (raceRely N i circuitID).Ok (i, .node n) (k ()) Q w') :
    (raceRely N i circuitID).Ok (i, .node n) (.op (.keysStore (toValid circuitID) key) k) Q w := by
  rintro w' ⟨-, hposted, -⟩ hinv
  have hstores : (World.act (i, .node n) (.keysStore (toValid circuitID) key) w').2.stores i =
      w'.stores i ++ [(n, toValid circuitID, key)] := Function.update_self ..
  refine ⟨fun ℓ' _ => ⟨⟨_, hstores.symm⟩, List.prefix_rfl, fun _ => rfl⟩, ?_, hk _ ?_⟩
  · exact hinv.store ⟨hposted.subset hpost.1, hpost.2⟩ rfl hstores rfl
  · exact hstores ▸ List.mem_append_right _ (List.mem_singleton_self _)

/-- The only keys the served request brings are keys posted to the node. -/
def Brings (N : Net ν) (i : ι) (circuitID : Bytes) (n : ν) (body : Bytes) (w : World ι ν) : Prop :=
  ∀ c key, Delivers N n body c key →
    c = toValid circuitID ∧ ∃ a url, PostedTo N i w n a url key

omit [DecidableEq ι] [DecidableEq ν] in
theorem Brings.later {n : ν} {body : Bytes} {w w' : World ι ν} (h : Brings N i circuitID n body w)
    (hposted : (w.journal i).posted <+: (w'.journal i).posted) :
    Brings N i circuitID n body w' := by
  intro c key hc
  obtain ⟨rfl, a, url, hpost, hroute⟩ := h c key hc
  exact ⟨rfl, a, url, hposted.subset hpost, hroute⟩

/-- A set-up request is answered with 204 after its key has been stored. -/
theorem race_handleSetup {n : ν} {addr body : Bytes} (hbrings : Brings N i circuitID n body w) :
    (raceRely N i circuitID).Ok (i, .node n) (handleSetup N.X (N.priv n) ⟨methodPost, addr, body⟩)
      (fun w' r => r.statusCode = statusNoContent →
        ∃ c key, Delivers N n body c key ∧ (n, c, key) ∈ w'.stores i) w := by
  -- every answer but the last is no 204
  have herr : ∀ {r : Response} {w : World ι ν}, r.statusCode ≠ statusNoContent →
      (raceRely N i circuitID).Ok (i, .node n) (.ret r) (fun w' r => r.statusCode = statusNoContent →
        ∃ c key, Delivers N n body c key ∧ (n, c, key) ∈ w'.stores i) w :=
    fun hr _ _ _ h204 => absurd h204 hr
  have h400 : statusBadRequest ≠ statusNoContent := by decide
  unfold handleSetup
  rw [if_neg (by simp)]
  split
  · exact herr h400
  · rename_i r hr
    split_ifs with hne
    · exact herr h400
    · split
      · exact herr h400
      · rename_i ct hct
        split
        · exact race_calm (by trivial) fun _ _ _ _ => herr h400
        · rename_i key hdec
          split_ifs
          · exact race_calm (by trivial) fun _ _ _ _ => herr h400
          · have hdel : Delivers N n body r.circuitID key :=
              ⟨r, ct, hr, rfl, fun h => hne (.inr h), hct,
                (decryptKey_eq_ok _).mp hdec⟩
            obtain ⟨hc, a, url, hpost⟩ := hbrings _ _ hdel
            rw [hc] at hdel ⊢
            -- the store is made while the body's key is still one that was posted
            refine race_keysStore hpost fun w₁ hmem => race_calm (by trivial) fun _ w₂ hle₂ _ => ?_
            exact fun w₃ hle₃ _ _ => ⟨_, key, hdel, hle₃.1.subset (hle₂.1.subset hmem)⟩

/-- The other handlers store nothing for the call. -/
theorem race_of_all {n : ν} {T : α → Prop} {p : Go α} (h : p.All Effect.Calm
      (fun q => ∃ url r, q = jsonPost url (OnionRequest.json r).encode) T) :
    (raceRely N i circuitID).Ok (i, .node n) p (fun _ => T) w := by
  refine Rely.Ok.of_all (I := fun _ => True) h trivial (fun _ _ _ _ _ => trivial)
    (fun e he v _ hv => ?_) ?_ fun a ha _ _ _ => ha
  · have hs : OthersAvoid i circuitID v (World.act (i, .node n) e v).2 := avoid_act he _ v
    exact ⟨fun ℓ' _ => raceRely_avoid hs ℓ', hv.avoid hs, trivial⟩
  · rintro q ⟨url, r, rfl⟩ v - -
    have hno := carriesNoKey_onionRequest r
    refine ⟨rfl, fun m c key _ hdel => ?_, hno.key⟩
    obtain ⟨r', ct, hr', -, hne, -⟩ := hdel
    exact absurd (hno.setup r' hr') hne

/-- A node that serves a request for the call. -/
theorem race_handle {n : ν} {endpoint : Endpoint} {addr : Bytes} {q : Post}
    (hroute : N.route q.url = some (n, endpoint)) (hq : BringsPosted N i circuitID w q) :
    (raceRely N i circuitID).Ok (i, .node n) (N.handle n endpoint ⟨methodPost, addr, q.body⟩)
      (fun w' r => r.statusCode = statusNoContent → ∃ n c key,
        N.route q.url = some (n, .setup) ∧ Delivers N n q.body c key ∧ (n, c, key) ∈ w'.stores i)
      w := by
  -- only the setup endpoint stores keys
  by_cases hsetup : endpoint = .setup
  · subst hsetup
    unfold Net.handle
    refine (race_handleSetup (hq.setup n · · hroute)).weaken fun r w' _ h h204 => ?_
    obtain ⟨c, key, hdel, hmem⟩ := h h204
    exact ⟨n, c, key, hroute, hdel, hmem⟩
  · have hnode : N.Footprint n endpoint q.body Effect.Calm
        (fun q => ∃ url r, q = jsonPost url (OnionRequest.json r).encode) := {
      plain := fun _ he => he.calm
      dest := fun _ _ => trivial
      answer := fun _ _ _ => trivial
      get := fun _ _ _ => trivial
      setup := fun h => absurd h hsetup
      key := fun _ r _ hr hne => absurd (hq.key r hr) hne
      forward := fun _ r hop payload _ _ => ⟨_, _, rfl⟩ }
    refine (race_of_all (Net.all_handle hnode methodPost addr)).weaken fun resp _ _ h h204 => ?_
    -- neither an onion nor a request without a key is answered with 204
    rcases h.noContent h204 with h | ⟨r, hr, hne⟩
    · exact absurd h hsetup
    · exact absurd (hq.key r hr) hne

theorem raceRely_lawful : (raceRely N i circuitID).Lawful (OthersAvoid i circuitID) where
  toOrdered := raceRely_ordered
  giveUp {ℓ w} hinv := by
    have hs : OthersAvoid i circuitID w (N.asynchronous.giveUp ℓ w).2 := ⟨fun _ => rfl, rfl, rfl⟩
    exact ⟨fun ℓ' => raceRely_avoid hs ℓ', hinv.avoid hs⟩
  post_giveUp _ _ _ hr := by cases hr
  env hs hinv := ⟨fun ℓ => raceRely_avoid hs ℓ, hinv.avoid hs⟩
  serve_shared ℓ q := by
    show (N.serve ℓ q).1 ≠ _
    unfold Net.serve
    split <;> simp
  serve {ℓ q w} _ hpre := by
    obtain ⟨j, p⟩ := ℓ
    obtain ⟨rfl, hq⟩ := hpre
    show (raceRely N j circuitID).Ok (N.serve (j, p) q).1 (N.serve (j, p) q).2 _ w
    -- a post that no node serves is an error
    unfold Net.serve
    split
    · rename_i n endpoint hroute
      simp only [Net.serveAt, perform_eq, Prog.op_bind, Prog.ret_bind, Prog.pure_eq]
      refine race_calm (by trivial) fun _ w₁ hle hinv => ?_
      have hq₁ : BringsPosted N j circuitID w₁ q := by
        refine ⟨fun n c key hr hdel => ?_, hq.key⟩
        obtain ⟨hc, a, url, hpost⟩ := hq.setup n c key hr hdel
        exact ⟨hc, a, url, hle.2.1.subset hpost.1, hpost.2⟩
      refine Rely.Ok.bind raceRely_ordered (race_handle hroute hq₁) (fun resp w₂ _ hresp => ?_) hinv
      rintro w₃ hle₃ - _ ⟨⟩ h204
      obtain ⟨m, c, key, hm, hdel, hmem⟩ := hresp h204
      exact ⟨m, c, key, hm, hdel, hle₃.1.subset hmem⟩
    · exact fun _ _ _ _ hr => by cases hr

end

/-! ## The client -/

/-- Where the client stands between attempts. -/
def Idle (i : ι) (w : World ι ν) : Prop := (w.journal i).established = none

/-- Where it stands in an attempt that has set up the nodes of `done` and
    has posted nothing else. -/
structure SettingUp (N : Net ν) (i : ι) (circuitID : Bytes) (done : List (Bytes × Bytes))
    (w : World ι ν) : Prop where
  idle : Idle i w
  posted : ∀ e ∈ (w.journal i).posted, e.1 = (w.journal i).attempt → e.2 ∈ done
  stored : ∀ e ∈ done, StoredAt N i circuitID w e

section

variable {w w' : World ι ν} {done : List (Bytes × Bytes)}

theorem Idle.later (h : Idle i w) (hle : (raceRely N i circuitID).le (i, .client) w w') :
    Idle i w' := by
  unfold Idle
  rw [hle.2.2 rfl]
  exact h

omit [DecidableEq ι] [DecidableEq ν] in
theorem StoredAt.later {e : Bytes × Bytes} (h : StoredAt N i circuitID w e)
    (hle : w.stores i <+: w'.stores i) : StoredAt N i circuitID w' e := by
  obtain ⟨n, hroute, hmem⟩ := h
  exact ⟨n, hroute, hle.subset hmem⟩

theorem SettingUp.later (h : SettingUp N i circuitID done w)
    (hle : (raceRely N i circuitID).le (i, .client) w w') : SettingUp N i circuitID done w' := by
  refine ⟨h.idle.later hle, ?_, fun e he => (h.stored e he).later hle.1⟩
  rw [hle.2.2 rfl]
  exact h.posted

variable {α : Type} {Q : World ι ν → α → Prop}

/-- What the journal says after a mark. -/
theorem journal_mark (m : Milestone) (v : World ι ν) :
    (World.act (i, .client) (.mark m) v).2.journal i = (v.journal i).mark m :=
  Function.update_self ..

/-- What a mark has to preserve of the invariant. -/
structure Markable (N : Net ν) (i : ι) (circuitID : Bytes) (m : Milestone) (v : World ι ν) :
    Prop where
  posted : (v.journal i).posted <+: ((v.journal i).mark m).posted
  attempts : ∀ e ∈ ((v.journal i).mark m).posted, e.1 ≤ ((v.journal i).mark m).attempt
  current : ∀ ks, ((v.journal i).mark m).established = some ks →
    (∀ e ∈ ((v.journal i).mark m).posted, e.1 = ((v.journal i).mark m).attempt → e.2 ∈ ks) ∧
      ∀ e ∈ ks, StoredAt N i circuitID v e

/-- The client records progress. -/
theorem race_mark {m : Milestone} {k : Unit → Go α}
    (hm : ∀ v, (raceRely N i circuitID).le (i, .client) w v → RaceInv N i circuitID v →
      Markable N i circuitID m v)
    (hk : ∀ v v', (raceRely N i circuitID).le (i, .client) w v → RaceInv N i circuitID v →
      v'.journal i = (v.journal i).mark m → v'.stores i = v.stores i → RaceInv N i circuitID v' →
      (raceRely N i circuitID).Ok (i, .client) (k ()) Q v') :
    (raceRely N i circuitID).Ok (i, .client) (.op (.mark m) k) Q w := by
  intro v hle hv
  obtain ⟨hposted, hattempts, hcurrent⟩ := hm v hle hv
  have hjournal := journal_mark (i := i) m v
  have hinv : RaceInv N i circuitID (World.act (i, .client) (.mark m) v).2 := by
    refine ⟨fun n c x hx => ?_, hv.last, hjournal ▸ hattempts, hjournal ▸ hcurrent⟩
    obtain ⟨hc, a, url, hmem, hroute⟩ := hv.stored n c x hx
    exact ⟨hc, a, url, by rw [hjournal]; exact hposted.subset hmem, hroute⟩
  refine ⟨fun ℓ' hℓ' => ⟨List.prefix_rfl, ?_, fun he => ?_⟩, hinv, hk v _ hle hv hjournal rfl hinv⟩
  · show (v.journal i).posted <+: ((World.act (i, .client) (.mark m) v).2.journal i).posted
    rw [hjournal]
    exact hposted
  · exact absurd he (hℓ'.elim id id)

/-- A part of the client's program that records no progress and posts
    nothing but onions. -/
theorem race_plain {p : Go α} {I : World ι ν → Prop} {T : α → Prop}
    (h : p.All Effect.Calm (fun q => ∃ url r, q = jsonPost url (OnionRequest.json r).encode) T)
    (hI : I w)
    (hlater : ∀ v v', I v → (raceRely N i circuitID).le (i, .client) v v' → I v') :
    (raceRely N i circuitID).Ok (i, .client) p (fun w' _ => I w') w := by
  refine Rely.Ok.of_all (I := I) h hI (fun v v' hv hle _ => hlater v v' hv hle)
    (fun e he v hIv hv => ?_) ?_ fun a ha v hIv _ => hIv
  · have hs : OthersAvoid i circuitID v (World.act (i, .client) e v).2 := avoid_act he _ v
    exact ⟨fun ℓ' _ => raceRely_avoid hs ℓ', hv.avoid hs, hlater _ _ hIv (raceRely_avoid hs _)⟩
  · rintro q ⟨url, r, rfl⟩ v - -
    have hno := carriesNoKey_onionRequest r
    refine ⟨rfl, fun m c key _ hdel => ?_, hno.key⟩
    obtain ⟨r', ct, hr', -, hne, -⟩ := hdel
    exact absurd (hno.setup r' hr') hne

/-- Where it stands after it has announced one more key. -/
structure Posting (N : Net ν) (i : ι) (circuitID : Bytes) (done : List (Bytes × Bytes))
    (e : Bytes × Bytes) (w : World ι ν) : Prop where
  idle : Idle i w
  posted : ∀ x ∈ (w.journal i).posted, x.1 = (w.journal i).attempt → x.2 ∈ done ++ [e]
  stored : ∀ x ∈ done, StoredAt N i circuitID w x
  mem : ((w.journal i).attempt, e) ∈ (w.journal i).posted

theorem Posting.later {e : Bytes × Bytes} (h : Posting N i circuitID done e w)
    (hle : (raceRely N i circuitID).le (i, .client) w w') : Posting N i circuitID done e w' := by
  have hjournal := hle.2.2 rfl
  exact ⟨h.idle.later hle, hjournal ▸ h.posted, fun x hx => (h.stored x hx).later hle.1,
    hjournal ▸ h.mem⟩

omit [DecidableEq ι] [DecidableEq ν] in
/-- The node has stored it. -/
theorem Posting.settingUp {e : Bytes × Bytes} (h : Posting N i circuitID done e w)
    (he : StoredAt N i circuitID w e) : SettingUp N i circuitID (done ++ [e]) w := by
  refine ⟨h.idle, h.posted, fun x hx => ?_⟩
  rcases List.mem_append.mp hx with hx | hx
  · exact h.stored x hx
  · exact List.mem_singleton.mp hx ▸ he

/-- The client announces the key it is about to post. -/
theorem race_posting {nodeURL key : Bytes} {k : Unit → Go α} (hw : SettingUp N i circuitID done w)
    (hk : ∀ w', Posting N i circuitID done (nodeURL, key) w' →
      (raceRely N i circuitID).Ok (i, .client) (k ()) Q w') :
    (raceRely N i circuitID).Ok (i, .client) (.op (.mark (.posting nodeURL key)) k) Q w := by
  refine race_mark (fun v hle hv => ?_) fun v w₂ hle hv hjournal hstores _ => hk w₂ ?_
  · have hidle := hw.idle.later hle
    refine ⟨List.prefix_append _ _, fun e he => ?_, fun ks hks => ?_⟩
    · rcases List.mem_append.mp he with he | he
      · exact hv.attempts e he
      · rw [List.mem_singleton.mp he]
        exact le_refl _
    · rw [Journal.mark, hidle] at hks
      cases hks
  · have hv := hw.later hle
    refine ⟨?_, ?_, fun e he => (hv.stored e he).later (hstores ▸ List.prefix_rfl), ?_⟩
    · unfold Idle
      rw [hjournal]
      exact hv.idle
    · rw [hjournal]
      intro e he hcur
      -- the post of this key is the one just marked
      rcases List.mem_append.mp he with he | he
      · exact List.mem_append_left _ (hv.posted e he hcur)
      · rw [List.mem_singleton.mp he]
        exact List.mem_append_right _ (List.mem_singleton_self _)
    · rw [hjournal]
      exact List.mem_append_right _ (List.mem_singleton_self _)

/-- A set-up that is answered with 204 has left its key at the node. -/
theorem race_sendSetupKey (hX : N.X.FaithfulOAEP) (hw : SettingUp N i circuitID done w)
    (nodeURL : Bytes) (pub : PublicKey) (key : Bytes) :
    (raceRely N i circuitID).Ok (i, .client) (sendSetupKey N.X nodeURL circuitID pub key)
      (fun w' r => r = .ok () → SettingUp N i circuitID (done ++ [(nodeURL, key)]) w') w := by
  have herr : ∀ {err : Bytes} {w : World ι ν}, (raceRely N i circuitID).Ok (i, .client)
      (.ret (.error err : Result Unit)) (fun w' r => r = .ok () →
        SettingUp N i circuitID (done ++ [(nodeURL, key)]) w') w := fun _ _ _ h => by cases h
  simp only [sendSetupKey, encryptKey, perform_eq, clientPost_eq, Prog.op_bind, Prog.rpc_bind,
    Prog.ret_bind, Prog.pure_eq]
  refine race_calm (by trivial) fun seed w₁ hle₁ _ => ?_
  cases henc : N.X.encryptOAEP pub seed.1 key with
  | error err => exact herr
  | ok ct =>
  -- what the body brings to whoever decrypts it
  have hdelivers : ∀ n c k, Delivers N n
      (KeySetupRequest.json ⟨circuitID, Base64.encode ct⟩).encode c k →
      c = toValid circuitID ∧ k = key := by
    rintro n c k ⟨r, ct', hr, rfl, -, hct', hdec⟩
    rw [decode_keySetupRequest, Option.some.injEq] at hr
    subst hr
    rw [Base64.decode_encode, Option.some.injEq] at hct'
    subst hct'
    exact ⟨rfl, hX henc hdec⟩
  -- the mark comes before the post, so whoever stores the key finds it posted
  refine race_posting (hw.later hle₁) fun w₂ hw₂ => ?_
  rintro w₃ hle₃ -
  refine ⟨⟨rfl, fun n c k hroute hdel => ?_, fun r hr => ?_⟩, fun r w₄ hle₄ _ hpost => ?_⟩
  · obtain ⟨rfl, rfl⟩ := hdelivers n c k hdel
    exact ⟨rfl, _, nodeURL, hle₃.2.1.subset hw₂.mem, hroute⟩
  · rw [decode_keySetupRequest_as_key, Option.some.injEq] at hr
    rw [← hr]
  · cases r with
    | error err => exact herr
    | ok resp =>
      dsimp only
      split_ifs with hstatus
      · exact herr
      · -- a 204 comes from a node that has stored this key
        obtain ⟨n, c, k, hroute, hdel, hkey⟩ := hpost resp rfl (not_not.mp hstatus)
        obtain ⟨rfl, rfl⟩ := hdelivers n c k hdel
        rintro w₅ hle₅ - -
        have hw₅ := ((hw₂.later hle₃).later hle₄).later hle₅
        exact hw₅.settingUp ⟨n, hroute, hle₅.1.subset hkey⟩

/-- Every candidate that was set up without an error has its key. -/
theorem race_setupCandidates (hX : N.X.FaithfulOAEP) (hw : SettingUp N i circuitID done w)
    (hinv : RaceInv N i circuitID w) (cands : List (NodeRecord × Bytes)) :
    (raceRely N i circuitID).Ok (i, .client) (setupCandidates N.X circuitID cands)
      (fun w' r => r = .ok () → SettingUp N i circuitID
        (done ++ cands.map fun c => (c.1.nodeURL, c.2)) w') w := by
  induction cands generalizing done w with
  | nil =>
    rintro w' hle - -
    rw [List.map_nil, List.append_nil]
    exact hw.later hle
  | cons c cands ih =>
    -- induction on the candidates; done are those set up so far
    obtain ⟨node, key⟩ := c
    unfold setupCandidates
    split
    · exact fun _ _ _ h => by cases h
    · refine Rely.Ok.bind raceRely_ordered (race_sendSetupKey hX hw _ _ _)
        (fun r w₁ hinv₁ hr => ?_) hinv
      cases r with
      | error err => exact fun _ _ _ h => by cases h
      | ok _ =>
        refine (ih (hr rfl) hinv₁).weaken fun r w' _ h hok => ?_
        rw [List.map_cons, List.append_cons]
        exact h hok

/-- A set-up without an error has left each key at its node. -/
theorem race_setupCircuit (hX : N.X.FaithfulOAEP) (hw : SettingUp N i circuitID [] w)
    (hinv : RaceInv N i circuitID w) (circuit : CircuitResponse) (hops : Int) :
    (raceRely N i circuitID).Ok (i, .client) (setupCircuitWithHops N.X circuitID circuit hops)
      (fun w' r => ∀ keys, r = .ok keys →
        SettingUp N i circuitID (sessionKeysAt circuit keys hops) w') w := by
  unfold setupCircuitWithHops
  split
  · exact fun _ _ _ _ h => by cases h
  · refine Rely.Ok.bind raceRely_ordered
      (race_plain (all_generateKeys (fun _ he => he.calm) hops) hw fun _ _ h hle => h.later hle)
      (fun keys w₁ hinv₁ hw₁ => ?_) hinv
    refine Rely.Ok.bind raceRely_ordered (race_setupCandidates hX hw₁ hinv₁ _)
      (fun r w₂ _ hr => ?_) hinv₁
    cases r with
    | error err => exact fun _ _ _ _ h => by cases h
    | ok _ =>
      rintro w₃ hle₃ - _ ⟨⟩
      exact (hr rfl).later hle₃

/-- An attempt, established or not, keeps the invariant. -/
theorem race_attemptCircuit (hX : N.X.FaithfulOAEP) {c : Call}
    (hw : SettingUp N i c.circuitID [] w) (hinv : RaceInv N i c.circuitID w)
    (circuit : CircuitResponse) :
    (raceRely N i c.circuitID).Ok (i, .client) (attemptCircuit N.X c circuit) (fun _ _ => True) w := by
  simp only [attemptCircuit, perform_eq, Prog.op_bind, Prog.ret_bind, Prog.pure_eq]
  refine Rely.Ok.bind raceRely_ordered (race_setupCircuit hX hw hinv _ _) (fun r w₁ hinv₁ hr => ?_)
    hinv
  cases r with
  | error err => exact fun _ _ _ => trivial
  | ok keys =>
    have hw₁ := hr keys rfl
    refine race_mark (fun v hle hv => ?_) fun v w₂ hle hv _ _ hinv₂ => ?_
    · -- this is where the keys of the attempt are fixed
      have hset := hw₁.later hle
      refine ⟨List.prefix_rfl, hv.attempts, fun ks hks => ?_⟩
      obtain rfl := Option.some.inj hks
      exact ⟨hset.posted, hset.stored⟩
    refine Rely.Ok.bind raceRely_ordered (race_plain (I := fun _ => True)
      (all_buildOnion (fun _ he => he.calm) _ _ _ _ _) trivial fun _ _ _ _ => trivial)
      (fun r w₃ hinv₃ _ => ?_) hinv₂
    cases r with
    | error err => exact fun _ _ _ => trivial
    | ok payload =>
      refine race_mark (fun v _ hv => ⟨List.prefix_rfl, hv.attempts, hv.current⟩)
        fun v w₄ _ _ _ _ hinv₄ => ?_
      refine Rely.Ok.bind raceRely_ordered (race_plain (I := fun _ => True)
        (all_sendOnion (fun _ _ => ⟨_, _, rfl⟩) _ _) trivial fun _ _ _ _ => trivial)
        (fun r w₅ _ _ => ?_) hinv₄
      cases r with
      | error err => exact fun _ _ _ => trivial
      | ok resp =>
        dsimp only
        split <;> exact fun _ _ _ => trivial

/-- An attempt begins with nothing posted. -/
theorem race_begin {k : Unit → Go α} (hw : Idle i w)
    (hk : ∀ w', SettingUp N i circuitID [] w' → RaceInv N i circuitID w' →
      (raceRely N i circuitID).Ok (i, .client) (k ()) Q w') :
    (raceRely N i circuitID).Ok (i, .client) (.op (.mark .attempt) k) Q w := by
  refine race_mark (fun v hle hv => ⟨List.prefix_rfl, fun e he => ?_, fun ks hks => ?_⟩)
    fun v w' hle hv hjournal hstores hinv => hk w' ?_ hinv
  · exact le_trans (hv.attempts e he) (Nat.le_succ _)
  · have hidle := hw.later hle
    -- between the attempts no keys are established
    rw [Journal.mark, hidle] at hks
    cases hks
  · refine ⟨?_, fun e he hcur => ?_, by simp⟩
    · unfold Idle
      rw [hjournal]
      exact hw.later hle
    · -- what was posted before belongs to earlier attempts
      rw [hjournal] at he hcur
      have hle := hv.attempts e he
      have hcur : e.1 = (v.journal i).attempt + 1 := hcur
      omega

/-- The end of an attempt. -/
theorem race_ended {k : Unit → Go α}
    (hk : ∀ w', Idle i w' → RaceInv N i circuitID w' →
      (raceRely N i circuitID).Ok (i, .client) (k ()) Q w') :
    (raceRely N i circuitID).Ok (i, .client) (.op (.mark .ended) k) Q w := by
  refine race_mark (fun v _ hv => ⟨List.prefix_rfl, hv.attempts, fun ks hks => by cases hks⟩)
    fun v w' _ _ hjournal _ hinv => hk w' ?_ hinv
  unfold Idle
  rw [hjournal]
  rfl

theorem race_runAttempts (hX : N.X.FaithfulOAEP) {c : Call} (hw : Idle i w)
    (hinv : RaceInv N i c.circuitID w) (maxAttempts : Int) (left : Nat) (attempt : Int)
    (events : List RebuildEvent) (lastErr : Option Bytes) (lastCircuit : Option CircuitResponse) :
    (raceRely N i c.circuitID).Ok (i, .client)
      (runAttempts N.X c maxAttempts left attempt events lastErr lastCircuit) (fun _ _ => True)
      w := by
  have hplain : ∀ e : Effect, e.Plain → e.Calm := fun _ he => he.calm
  -- induction on the attempts left; the state between them is idle
  induction left generalizing attempt events lastErr lastCircuit w with
  | zero => exact fun _ _ _ => trivial
  | succ left ih =>
    simp only [runAttempts, perform_eq, Prog.op_bind, Prog.ret_bind, Prog.pure_eq]
    refine Rely.Ok.bind raceRely_ordered (race_plain (all_beginRebuild hplain _ _ _ _ _) hw
      fun _ _ h hle => h.later hle) (fun events w₁ hinv₁ hw₁ => ?_) hinv
    refine race_begin hw₁ fun w₂ hw₂ hinv₂ => ?_
    refine Rely.Ok.bind raceRely_ordered (race_plain (all_getCircuit (fun _ => trivial) _ _) hw₂
      fun _ _ h hle => h.later hle) (fun r w₃ hinv₃ hw₃ => ?_) hinv₂
    cases r with
    | error err => exact fun _ _ _ => trivial
    | ok circuit =>
      refine Rely.Ok.bind raceRely_ordered (race_attemptCircuit hX hw₃ hinv₃ circuit)
        (fun out w₄ _ _ => ?_) hinv₃
      refine race_ended fun w₅ hw₅ hinv₅ => ?_
      have hfinish (success : Bool) (events : List RebuildEvent) :
          (raceRely N i c.circuitID).Ok (i, .client) (finishRebuild success events)
            (fun w' _ => Idle i w') w₅ :=
        race_plain (all_finishRebuild hplain success events) hw₅ fun _ _ h hle => h.later hle
      cases out with
      | fail err => exact fun _ _ _ => trivial
      | retry err =>
        exact Rely.Ok.bind raceRely_ordered (hfinish false events)
          (fun _ w₆ hinv₆ hw₆ => ih hw₆ hinv₆ _ _ _ _) hinv₅
      | done resp =>
        exact Rely.Ok.bind raceRely_ordered (hfinish true events) (fun _ _ _ _ _ _ _ => trivial) hinv₅

theorem race_executeRequest (hX : N.X.FaithfulOAEP) {c : Call} (hw : Idle i w)
    (hinv : RaceInv N i c.circuitID w) :
    (raceRely N i c.circuitID).Ok (i, .client) (executeRequestWithRebuildTracking N.X c)
      (fun _ _ => True) w := by
  unfold executeRequestWithRebuildTracking
  split
  · exact fun _ _ _ => trivial
  · exact race_runAttempts hX hw hinv _ _ _ _ _ _

end

/-! ## Last writer wins -/

/-- **Keys of an attempt**: in every interleaving, from the end of an
    attempt's set-up to the end of the attempt, each node of its circuit
    holds the key of the attempt, unless a set-up message of an earlier
    attempt of the call, or for another hop of this circuit at the same
    node, reached the node later; the node then holds the key that was
    delivered to it last. -/
theorem keys_held_or_overtaken (hX : N.X.FaithfulOAEP) {call : Call} {w₀ : World ι ν}
    (hstores : w₀.stores i = []) (hjournal : w₀.journal i = .zero)
    {c : Config Effects (Loc ι ν) (World ι ν) Unit (Result CircuitResult)}
    (hreach : Config.Reaches N.asynchronous (OthersAvoid i call.circuitID) (startCall N i call w₀) c)
    {ks : List (Bytes × Bytes)} (hks : (c.world.journal i).established = some ks) :
    ∀ e ∈ ks, ∃ n, N.route (e.1 ++ lit "/setup") = some (n, .setup) ∧
      (c.world.keys n (toValid call.circuitID) = some e.2 ∨
        Overtaken N i c.world n call.circuitID ks e) := by
  have hstart : RaceInv N i call.circuitID w₀ := by
    refine ⟨?_, ?_, ?_, ?_⟩ <;> simp [hstores, hjournal, Journal.zero, lastStored]
  have hidle : Idle i w₀ := by simp [Idle, hjournal, Journal.zero]
  obtain ⟨hinv, -⟩ := Rely.sound raceRely_lawful (Function.injective_of_subsingleton _) hstart
    (fun _ => race_executeRequest hX hidle hstart) hreach
  exact fun e he => hinv.held_or_overtaken hks he

namespace Sample

/-- The set-up message of the first attempt times out and is delivered after
    the second attempt has been set up. -/
def lateMoves : List (Move Unit) :=
  List.replicate 6 (.main ()) ++ .timeout () 0 ::
    List.replicate 14 (.main ()) ++ List.replicate 2 (.orphan 0)

/-- The run has come to the second attempt, and the guard holds the key of
    the first. -/
theorem late_run : ∃ c,
    Config.Reaches net.asynchronous (OthersAvoid () retryCall.circuitID)
      (startCall net () retryCall start) c ∧
    (c.world.journal ()).established = some [((record .guard).nodeURL, List.replicate 32 11)] ∧
    c.world.keys .guard (toValid retryCall.circuitID) = some (List.replicate 32 2) := by
  have hplay : ((startCall net () retryCall start).play net.asynchronous lateMoves).map
      (fun c => ((c.world.journal ()).established,
        c.world.keys .guard (toValid retryCall.circuitID))) =
      some (some [((record .guard).nodeURL, List.replicate 32 11)], some (List.replicate 32 2)) := by
    decide +kernel
  obtain ⟨c, hc, hres⟩ := Option.map_eq_some_iff.mp hplay
  exact ⟨c, Config.reaches_of_play hc, Prod.ext_iff.mp hres⟩

end Sample

/-- In the second attempt of the sample the guard's key has been overtaken,
    and the guard holds the key of the first. -/
theorem keys_held_or_overtaken_sample : ∃ c,
    Config.Reaches Sample.net.asynchronous (OthersAvoid () Sample.retryCall.circuitID)
      (startCall Sample.net () Sample.retryCall Sample.start) c ∧
    Overtaken Sample.net () c.world .guard Sample.retryCall.circuitID
      [((Sample.record .guard).nodeURL, List.replicate 32 11)]
      ((Sample.record .guard).nodeURL, List.replicate 32 11) ∧
    c.world.keys .guard (toValid Sample.retryCall.circuitID) = some (List.replicate 32 2) := by
  obtain ⟨c, hreach, hks, hkey⟩ := Sample.late_run
  refine ⟨c, hreach, ?_, hkey⟩
  obtain ⟨n, hroute, hcases⟩ := keys_held_or_overtaken Sample.faithfulOAEP rfl rfl hreach hks _
    (List.mem_singleton_self _)
  have hguard : Sample.net.route ((Sample.record .guard).nodeURL ++ lit "/setup") =
      some (.guard, .setup) := (Sample.honest .guard).setupRoute
  obtain rfl : n = Role.guard := (Prod.ext_iff.mp (Option.some.inj (hroute.symm.trans hguard))).1
  refine hcases.resolve_left fun hown => ?_
  -- the guard does not hold the key of the attempt
  rw [hkey] at hown
  revert hown
  decide

/-- The set-up message of the first attempt is delivered while the second
    attempt is under way: the guard holds the key of the first. -/
theorem key_overtaken : ∃ c,
    Config.Reaches Sample.net.asynchronous (OthersAvoid () Sample.retryCall.circuitID)
      (startCall Sample.net () Sample.retryCall Sample.start) c ∧
    (c.world.journal ()).established =
      some [((Sample.record .guard).nodeURL, List.replicate 32 11)] ∧
    c.world.keys .guard (toValid Sample.retryCall.circuitID) = some (List.replicate 32 2) := by
  obtain ⟨c, hreach, hks, hkey⟩ := Sample.late_run
  exact ⟨c, hreach, hks, hkey⟩

end HopVault
