import HopVault.Framework.Interleaving

/-! # Reasoning about every interleaving

    `le ℓ` says what may happen to the world between two moves of a
    program at `ℓ`, an invariant `inv` holds between all moves, and every
    remote call has a precondition and a postcondition. Where only one
    program runs at a location, it need not tolerate its own kind of
    moves: it may rely on what nobody else touches. `Ok` says that a
    program, started in a world, keeps to this whatever happens in between
    and whichever of its calls fail; it is checked one program at a time,
    and `Rely.sound` carries it to all reachable configurations. -/

namespace Framework

/-- What programs may rely on, and have to keep. -/
structure Rely {S : Sig} {L W : Type} (M : Distributed S L W) where
  /-- What others may do to the world, as seen from a location. -/
  le : L → W → W → Prop
  /-- More than one program may run at the location. -/
  shared : L → Prop
  inv : W → Prop
  /-- The condition under which a call may be made. -/
  pre : L → S.Req → W → Prop
  /-- The call was made in the first world and answered in the second. -/
  post : L → S.Req → W → S.Resp → W → Prop

namespace Rely

variable {S : Sig} {L W ι α β : Type} {M : Distributed S L W} (G : Rely M)

/-- A move at `ℓ` is tolerable to all who may run at the same time. -/
def Tolerable (ℓ : L) (w w' : W) : Prop := ∀ ℓ', G.shared ℓ' ∨ ℓ' ≠ ℓ → G.le ℓ' w w'

/-- Started at `ℓ` in `w` or any later world, the program keeps the
    invariant and what others rely on, calls only where it may, and
    returns with `Q`. -/
def Ok (ℓ : L) : Prog S α → (W → α → Prop) → W → Prop
  | .ret a, Q, w => ∀ w', G.le ℓ w w' → G.inv w' → Q w' a
  | .op e k, Q, w => ∀ w', G.le ℓ w w' → G.inv w' →
      G.Tolerable ℓ w' (M.act ℓ e w').2 ∧ G.inv (M.act ℓ e w').2 ∧
        Ok ℓ (k (M.act ℓ e w').1) Q (M.act ℓ e w').2
  | .rpc q k, Q, w => ∀ w', G.le ℓ w w' → G.inv w' → G.pre ℓ q w' ∧
      ∀ r w'', G.le ℓ w' w'' → G.inv w'' → G.post ℓ q w' r w'' → Ok ℓ (k r) Q w''

/-- What is relied on is an order. -/
structure Ordered : Prop where
  refl : ∀ ℓ w, G.le ℓ w w
  trans : ∀ {ℓ u v w}, G.le ℓ u v → G.le ℓ v w → G.le ℓ u w

/-- Faults and the environment keep to the order, and served calls meet
    their contracts at locations that are shared. -/
structure Lawful (E : W → W → Prop) : Prop extends Ordered G where
  giveUp : ∀ {ℓ w}, G.inv w → (∀ ℓ', G.le ℓ' w (M.giveUp ℓ w).2) ∧ G.inv (M.giveUp ℓ w).2
  post_giveUp : ∀ {ℓ q w w'}, G.le ℓ w w' → G.inv w' →
    G.post ℓ q w (M.giveUp ℓ w').1 (M.giveUp ℓ w').2
  env : ∀ {w w'}, E w w' → G.inv w → (∀ ℓ, G.le ℓ w w') ∧ G.inv w'
  serve_shared : ∀ ℓ q, G.shared (M.serve ℓ q).1
  serve : ∀ {ℓ q w}, G.inv w → G.pre ℓ q w →
    G.Ok (M.serve ℓ q).1 (M.serve ℓ q).2 (fun w' r => G.post ℓ q w r w') w

variable {G} {E : W → W → Prop}

/-! ## Rules for programs -/

/-- What is fine now is fine later. -/
theorem Ok.later (hG : G.Ordered) {ℓ : L} {p : Prog S α} {Q : W → α → Prop} {w w' : W}
    (h : G.Ok ℓ p Q w) (hle : G.le ℓ w w') : G.Ok ℓ p Q w' := by
  cases p with
  | ret a => exact fun v hv => h v (hG.trans hle hv)
  | op e k => exact fun v hv => h v (hG.trans hle hv)
  | rpc q k => exact fun v hv => h v (hG.trans hle hv)

/-- **Sequence rule**. -/
theorem Ok.bind (hG : G.Ordered) {ℓ : L} {p : Prog S α} {f : α → Prog S β} {R : W → α → Prop}
    {Q : W → β → Prop} {w : W} (hp : G.Ok ℓ p R w)
    (hf : ∀ a w', G.inv w' → R w' a → G.Ok ℓ (f a) Q w') (hinv : G.inv w) :
    G.Ok ℓ (p >>= f) Q w := by
  induction p generalizing w with
  | ret a => exact hf a w hinv (hp w (hG.refl ℓ w) hinv)
  | op e k ih =>
    intro w' hle hw'
    obtain ⟨hmove, hinv₂, hk⟩ := hp w' hle hw'
    exact ⟨hmove, hinv₂, ih _ hk hinv₂⟩
  | rpc q k ih =>
    intro w' hle hw'
    obtain ⟨hpre, hk⟩ := hp w' hle hw'
    exact ⟨hpre, fun r w'' hle₂ hw'' hpost => ih r (hk r w'' hle₂ hw'' hpost) hw''⟩

/-- **Consequence rule**. -/
theorem Ok.weaken {ℓ : L} {p : Prog S α} {Q R : W → α → Prop} {w : W}
    (h : G.Ok ℓ p Q w) (hQ : ∀ a w', G.inv w' → Q w' a → R w' a) : G.Ok ℓ p R w := by
  induction p generalizing w with
  | ret a => exact fun w' hle hw' => hQ a w' hw' (h w' hle hw')
  | op e k ih =>
    intro w' hle hw'
    obtain ⟨hmove, hinv₂, hk⟩ := h w' hle hw'
    exact ⟨hmove, hinv₂, ih _ hk⟩
  | rpc q k ih =>
    intro w' hle hw'
    obtain ⟨hpre, hk⟩ := h w' hle hw'
    exact ⟨hpre, fun r w'' hle₂ hw'' hpost => ih r (hk r w'' hle₂ hw'' hpost)⟩

/-- **Footprint rule**: a program is fine if every operation and call in its
    footprint may be made whenever `I` holds, and keeps `I`. -/
theorem Ok.of_all {ℓ : L} {p : Prog S α} {P : S.Op → Prop} {R : S.Req → Prop} {T : α → Prop}
    {I : W → Prop} {Q : W → α → Prop} {w : W} (h : p.All P R T) (hI : I w)
    (hlater : ∀ v v', I v → G.le ℓ v v' → G.inv v' → I v')
    (hop : ∀ e, P e → ∀ v, I v → G.inv v →
      G.Tolerable ℓ v (M.act ℓ e v).2 ∧ G.inv (M.act ℓ e v).2 ∧ I (M.act ℓ e v).2)
    (hreq : ∀ q, R q → ∀ v, I v → G.inv v → G.pre ℓ q v)
    (hret : ∀ a, T a → ∀ v, I v → G.inv v → Q v a) : G.Ok ℓ p Q w := by
  induction p generalizing w with
  | ret a => exact fun w' hle hw' => hret a h w' (hlater w w' hI hle hw') hw'
  | op e k ih =>
    intro w' hle hw'
    obtain ⟨hmove, hinv₂, hI₂⟩ := hop e h.1 w' (hlater w w' hI hle hw') hw'
    exact ⟨hmove, hinv₂, ih _ (h.2 _) hI₂⟩
  | rpc q k ih =>
    intro w' hle hw'
    have hI₂ := hlater w w' hI hle hw'
    exact ⟨hreq q h.1 w' hI₂ hw', fun r w'' hle₂ hw'' _ =>
      ih r (h.2 r) (hlater w' w'' hI₂ hle₂ hw'')⟩

/-! ## Soundness -/

/-- Every program of a thread runs at a shared location. -/
def Shared (G : Rely M) {α : Type} : Thread S L α → Prop
  | .run ℓ _ => G.shared ℓ
  | .wait ℓ _ callee => G.shared ℓ ∧ Shared G callee

/-- The location of the outermost program of a thread. -/
def root {α : Type} : Thread S L α → L
  | .run ℓ _ => ℓ
  | .wait ℓ _ _ => ℓ

theorem Shared.root {t : Thread S L α} (h : Shared G t) : G.shared (root t) := by
  cases t with
  | run ℓ p => exact h
  | wait ℓ k c => exact h.1

/-- A thread in the middle of its programs: every waiting caller can go on
    with whatever its callee's contract allows, and callees share their
    locations. -/
inductive ThreadOk (G : Rely M) : {α : Type} → W → Thread S L α → (W → α → Prop) → Prop
  | run {α : Type} {w : W} {ℓ : L} {p : Prog S α} {Q : W → α → Prop} :
      G.Ok ℓ p Q w → ThreadOk G w (.run ℓ p) Q
  | wait {α : Type} {w : W} {ℓ : L} {k : S.Resp → Prog S α} {callee : Thread S L S.Resp}
      {Q : W → α → Prop} (w₀ : W) (q : S.Req) : G.le ℓ w₀ w → Shared G callee →
      ThreadOk G w callee (fun w' r => G.post ℓ q w₀ r w') →
      (∀ r w', G.le ℓ w₀ w' → G.inv w' → G.post ℓ q w₀ r w' → G.Ok ℓ (k r) Q w') →
      ThreadOk G w (.wait ℓ k callee) Q

/-- A move does not disturb the threads that tolerate it. -/
theorem ThreadOk.later (hG : G.Ordered) {t : Thread S L α} {Q : W → α → Prop} {w w' : W}
    (h : ThreadOk G w t Q) (hle : ∀ ℓ, G.shared ℓ ∨ ℓ = root t → G.le ℓ w w') :
    ThreadOk G w' t Q := by
  induction h with
  | run h => exact .run (h.later hG (hle _ (.inr rfl)))
  | wait w₀ q hw₀ hshared _ hk ih =>
    refine .wait w₀ q (hG.trans hw₀ (hle _ (.inr rfl))) hshared (ih fun ℓ hℓ => hle ℓ (.inl ?_)) hk
    exact hℓ.elim id fun h => h ▸ hshared.root

/-- What a move has to establish: the thread can go on, and the move is
    tolerable to all others. -/
structure Moved (G : Rely M) (root : L) (w w' : W) : Prop where
  inv : G.inv w'
  /-- The move was made at the root or at a shared location. -/
  tolerable : ∃ ℓ, (ℓ = root ∨ G.shared ℓ) ∧ G.Tolerable ℓ w w'

/-- A move of a callee, seen by its caller. -/
theorem Moved.of_callee {ℓ ℓ' : L} {w w' : W} (h : Moved G ℓ' w w') (hshared : G.shared ℓ') :
    Moved G ℓ w w' ∧ G.le ℓ w w' := by
  obtain ⟨ℓ₁, hℓ₁, htol⟩ := h.tolerable
  have hs : G.shared ℓ₁ := hℓ₁.elim (fun h => h ▸ hshared) id
  refine ⟨⟨h.inv, ℓ₁, .inr hs, htol⟩, htol ℓ ?_⟩
  by_cases hℓ : ℓ = ℓ₁
  · exact .inl (hℓ ▸ hs)
  · exact .inr hℓ

/-- A step that the thread makes by itself. -/
theorem step_root {t t' : Thread S L α} {w w' : W} (hs : t.step M w = some (t', w')) :
    root t' = root t := by
  cases t with
  | run ℓ p =>
    rcases Thread.run_step_cases M hs with ⟨e, k, rfl, rfl, -⟩ | ⟨q, k, rfl, rfl, -⟩
    · rfl
    · rfl
  | wait ℓ k c =>
    rcases Thread.wait_step_cases M hs with ⟨ℓ', r, rfl, rfl, -⟩ | ⟨c', -, rfl⟩
    · rfl
    · rfl

theorem step_shared (hG : G.Lawful E) {t t' : Thread S L α} {w w' : W} (h : Shared G t)
    (hs : t.step M w = some (t', w')) : Shared G t' := by
  induction t generalizing w w' with
  | run ℓ p =>
    rcases Thread.run_step_cases M hs with ⟨e, k, rfl, rfl, -⟩ | ⟨q, k, rfl, rfl, -⟩
    · -- a thread that runs is shared as long as it stays at its place
      exact h
    · exact ⟨h, hG.serve_shared ℓ q⟩
  | wait ℓ k c ih =>
    rcases Thread.wait_step_cases M hs with ⟨ℓ', r, rfl, rfl, -⟩ | ⟨c', hcs, rfl⟩
    · exact h.1
    · exact ⟨h.1, ih h.2 hcs⟩

theorem ThreadOk.step (hG : G.Lawful E) {t t' : Thread S L α} {Q : W → α → Prop} {w w' : W}
    (h : ThreadOk G w t Q) (hinv : G.inv w) (hs : t.step M w = some (t', w')) :
    ThreadOk G w' t' Q ∧ Moved G (root t) w w' := by
  -- a step that leaves the world alone keeps everything else as well
  have hstay : ∀ ℓ, Moved G ℓ w w := fun ℓ => ⟨hinv, ℓ, .inl rfl, fun ℓ' _ => hG.refl ℓ' w⟩
  induction h generalizing w' with
  | @run _ w ℓ p Q h =>
    rcases Thread.run_step_cases M hs with ⟨e, k, rfl, rfl, rfl⟩ | ⟨q, k, rfl, rfl, rfl⟩
    · obtain ⟨hmove, hinv', hk⟩ := h _ (hG.refl ℓ _) hinv
      exact ⟨.run hk, hinv', ℓ, .inl rfl, hmove⟩
    · obtain ⟨hpre, hk⟩ := h _ (hG.refl ℓ _) hinv
      -- a call: the callee may rely on the world as it is now
      exact ⟨.wait _ q (hG.refl ℓ _) (hG.serve_shared ℓ q) (.run (hG.serve hinv hpre)) hk, hstay _⟩
  | @wait _ w ℓ k c Q w₀ q hw₀ hshared hc hk ih =>
    rcases Thread.wait_step_cases M hs with ⟨ℓ', r, rfl, rfl, rfl⟩ | ⟨c', hcs, rfl⟩
    · -- a return: the caller goes on from what the callee promises
      cases hc with
      | run hret => exact ⟨.run (hk r _ hw₀ hinv (hret _ (hG.refl _ _) hinv)), hstay _⟩
    · obtain ⟨hc', hmoved⟩ := ih hinv hcs hstay
      -- the callee moves, which the caller has to tolerate
      obtain ⟨hmoved', hle⟩ := hmoved.of_callee hshared.root
      exact ⟨.wait w₀ q (hG.trans hw₀ hle) (step_shared hG hshared hcs) hc' hk, hmoved'⟩

/-- What giving up leaves behind. -/
theorem ThreadOk.expire (hG : G.Lawful E) {t t' : Thread S L α} {o : Thread S L S.Resp} {d : Nat}
    {Q : W → α → Prop} {w w' : W} (h : ThreadOk G w t Q) (hinv : G.inv w)
    (hs : t.expire M d w = some (t', o, w')) :
    G.inv w' ∧ (∀ ℓ, G.le ℓ w w') ∧ ThreadOk G w' t' Q ∧ root t' = root t ∧
      (Shared G t → Shared G t') ∧ Shared G o ∧ ∃ R, ThreadOk G w' o R := by
  induction h generalizing d w' with
  | run h => cases d <;> cases hs
  | @wait _ w ℓ k callee Q w₀ q hw₀ hshared hc hk ih =>
    rcases Thread.wait_expire_cases M hs with ⟨rfl, rfl, rfl⟩ | ⟨c', d', hcs, rfl⟩
    · -- the callee goes on as an orphan, with the guarantee it had
      obtain ⟨hle, hinv'⟩ := hG.giveUp (ℓ := ℓ) hinv
      have hpost := hG.post_giveUp (ℓ := ℓ) (q := q) hw₀ hinv
      have hc' := hc.later hG.toOrdered fun ℓ' _ => hle ℓ'
      exact ⟨hinv', hle, .run (hk _ _ (hG.trans hw₀ (hle ℓ)) hinv' hpost), rfl, And.left, hshared,
        _, hc'⟩
    · obtain ⟨hinv', hle, hc', -, hshared', horphan⟩ := ih hinv hcs
      exact ⟨hinv', hle, .wait w₀ q (hG.trans hw₀ (hle ℓ)) (hshared' hshared) hc' hk, rfl,
        fun h => ⟨h.1, hshared' h.2⟩, horphan⟩

theorem ThreadOk.moves (hG : G.Lawful E) {t t' : Thread S L α} {os : List (Thread S L S.Resp)}
    {Q : W → α → Prop} {w w' : W} (h : ThreadOk G w t Q) (hinv : G.inv w)
    (hm : t.Moves M w t' os w') :
    Moved G (root t) w w' ∧ ThreadOk G w' t' Q ∧ root t' = root t ∧ (Shared G t → Shared G t') ∧
      ∀ o ∈ os, Shared G o ∧ ∃ R, ThreadOk G w' o R := by
  cases hm with
  | step hs =>
    obtain ⟨ht', hmoved⟩ := h.step hG hinv hs
    exact ⟨hmoved, ht', step_root hs, fun hsh => step_shared hG hsh hs, by simp⟩
  | expire d hs =>
    obtain ⟨hinv', hle, ht', hroot, hshared, ho⟩ := h.expire hG hinv hs
    exact ⟨⟨hinv', root t, .inl rfl, fun ℓ _ => hle ℓ⟩, ht', hroot, hshared, by simpa using ho⟩

/-- Every thread of a configuration is fine, and the invariant holds. -/
structure ConfigOk (G : Rely M) (loc : ι → L) (Q : ι → W → α → Prop) (c : Config S L W ι α) :
    Prop where
  inv : G.inv c.world
  main : ∀ i, ThreadOk G c.world (c.main i) (Q i)
  roots : ∀ i, root (c.main i) = loc i
  orphans : ∀ o ∈ c.orphans, Shared G o ∧ ∃ R, ThreadOk G c.world o R

variable {loc : ι → L} {Q : ι → W → α → Prop}

/-- Orphans tolerate every move. -/
theorem ConfigOk.orphans_later (hG : G.Lawful E) {c : Config S L W ι α} (h : ConfigOk G loc Q c)
    {w' : W} (hle : ∀ ℓ, G.shared ℓ → G.le ℓ c.world w') :
    ∀ o ∈ c.orphans, Shared G o ∧ ∃ R, ThreadOk G w' o R := by
  intro o ho
  obtain ⟨hshared, R, hR⟩ := h.orphans o ho
  refine ⟨hshared, R, hR.later hG.toOrdered fun ℓ hℓ => hle ℓ ?_⟩
  exact hℓ.elim id fun h => h ▸ hshared.root

variable [DecidableEq ι]

theorem ConfigOk.step (hG : G.Lawful E) (hloc : Function.Injective loc) {c c' : Config S L W ι α}
    (h : ConfigOk G loc Q c) (hs : Config.Step M E c c') : ConfigOk G loc Q c' := by
  cases hs with
  | @main i t' os w' hm =>
    obtain ⟨⟨hinv', ℓ, hℓ, htol⟩, ht', hroot, -, hos⟩ := (h.main i).moves hG h.inv hm
    refine ⟨hinv', fun j => ?_, fun j => ?_, fun o ho => ?_⟩
    · dsimp only
      by_cases hij : j = i
      · subst hij
        rw [Function.update_self]
        exact ht'
      · rw [Function.update_of_ne hij]
        -- another main thread is at another root
        refine (h.main j).later hG.toOrdered fun ℓ' hℓ' => htol ℓ' ?_
        by_cases hsame : ℓ' = ℓ
        · subst hsame
          refine .inl (hℓ'.elim id fun hj => hℓ.elim (fun hi => ?_) id)
          rw [h.roots] at hi hj
          exact absurd (hloc (hj.symm.trans hi)) hij
        · exact .inr hsame
    · dsimp only
      by_cases hij : j = i
      · subst hij
        rw [Function.update_self, hroot, h.roots]
      · rw [Function.update_of_ne hij, h.roots]
    · rcases List.mem_append.mp ho with ho | ho
      · exact hos o ho
      · exact h.orphans_later hG (fun ℓ' hℓ' => htol ℓ' (.inl hℓ')) o ho
  | @orphan before after t t' os w' hsplit hm =>
    obtain ⟨hshared, R, hR⟩ := h.orphans t (by rw [hsplit]; simp)
    -- an orphan is nobody's root, so all main threads tolerate it
    obtain ⟨hmoved, ht', -, hshared', hos⟩ := hR.moves hG h.inv hm
    have hle : ∀ ℓ, G.le ℓ c.world w' := fun ℓ => (hmoved.of_callee (ℓ := ℓ) hshared.root).2
    refine ⟨hmoved.inv, fun j => (h.main j).later hG.toOrdered fun ℓ _ => hle ℓ, h.roots,
      fun o ho => ?_⟩
    have hold := h.orphans_later hG fun ℓ _ => hle ℓ
    rcases List.mem_append.mp ho with ho | ho
    · exact hos o ho
    · rcases List.mem_append.mp ho with ho | ho
      · exact hold o (by rw [hsplit]; exact List.mem_append_left _ ho)
      · rcases List.mem_cons.mp ho with rfl | ho
        · exact ⟨hshared' hshared, R, ht'⟩
        · exact hold o (by rw [hsplit]; simp [ho])
  | env he =>
    obtain ⟨hle, hinv'⟩ := hG.env he h.inv
    exact ⟨hinv', fun j => (h.main j).later hG.toOrdered fun ℓ _ => hle ℓ, h.roots,
      h.orphans_later hG fun ℓ _ => hle ℓ⟩

/-- **Soundness**: if every main program is fine at the start, then in every
    configuration any interleaving reaches, the invariant holds and every
    finished program has its postcondition. -/
theorem sound (hG : G.Lawful E) (hloc : Function.Injective loc) {w₀ : W} {prog : ι → Prog S α}
    (hinv : G.inv w₀) (hprog : ∀ i, G.Ok (loc i) (prog i) (Q i) w₀) {c : Config S L W ι α}
    (hreach : Config.Reaches M E ⟨w₀, fun i => .run (loc i) (prog i), []⟩ c) :
    G.inv c.world ∧ ∀ i a, (c.main i).result? = some a → Q i c.world a := by
  have hinit : ConfigOk G loc Q ⟨w₀, fun i => .run (loc i) (prog i), []⟩ :=
    ⟨hinv, fun i => .run (hprog i), fun _ => rfl, by simp⟩
  have hok := hreach.invariant hinit fun _ _ h hs => h.step hG hloc hs
  refine ⟨hok.inv, fun i a ha => ?_⟩
  obtain ⟨ℓ, hrun⟩ := Thread.result?_eq_some.mp ha
  have hthread := hok.main i
  rw [hrun] at hthread
  cases hthread with
  | run h => exact h _ (hG.refl ℓ _) hok.inv

end Rely

end Framework
