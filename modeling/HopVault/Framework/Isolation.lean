import HopVault.Framework.Interleaving

/-! # Isolation of owners

    Every location belongs to an owner, and every owner has a part of the
    world of its own: two worlds *agree* for an owner when that part is
    the same in both. If the programs of an owner touch nothing but its
    part, then whatever the others do in between, and however they fail,
    a thread that met no fault ends as it would have by itself. -/

namespace Framework

/-- Owners of locations with the part of the world each may touch. -/
structure Isolation {S : Sig} {L W : Type} (M : Distributed S L W) (ι : Type) where
  owner : L → ι
  /-- The two worlds agree on the part of an owner. -/
  agree : ι → W → W → Prop
  /-- No call of the owner has been given up. -/
  clean : ι → W → Prop
  /-- The operations and remote calls an owner may make. -/
  opOk : ι → S.Op → Prop
  reqOk : ι → S.Req → Prop

namespace Isolation

variable {S : Sig} {L W ι α : Type} {M : Distributed S L W} (I : Isolation M ι)

/-- A program makes only operations and calls its owner may make. -/
abbrev Only (i : ι) (p : Prog S α) : Prop := p.All (I.opOk i) (I.reqOk i) fun _ => True

/-- Every program of a thread belongs to the owner and keeps to its part. -/
def ThreadOnly {α : Type} (i : ι) : Thread S L α → Prop
  | .run ℓ p => I.owner ℓ = i ∧ I.Only i p
  | .wait ℓ k callee => I.owner ℓ = i ∧ (∀ r, I.Only i (k r)) ∧ ThreadOnly i callee

/-- The owners' parts are really parts: an owner's operations depend on
    its own part only, and leave the parts of the others alone. -/
structure Lawful : Prop where
  refl : ∀ i w, I.agree i w w
  trans : ∀ {i u v w}, I.agree i u v → I.agree i v w → I.agree i u w
  act_own : ∀ {ℓ e v w}, I.opOk (I.owner ℓ) e → I.agree (I.owner ℓ) v w →
    (M.act ℓ e v).1 = (M.act ℓ e w).1 ∧ I.agree (I.owner ℓ) (M.act ℓ e v).2 (M.act ℓ e w).2
  act_other : ∀ {i ℓ e w}, I.opOk (I.owner ℓ) e → I.owner ℓ ≠ i → I.agree i w (M.act ℓ e w).2
  act_clean : ∀ {ℓ e w}, I.opOk (I.owner ℓ) e → I.clean (I.owner ℓ) (M.act ℓ e w).2 →
    I.clean (I.owner ℓ) w
  giveUp_own : ∀ ℓ w, ¬I.clean (I.owner ℓ) (M.giveUp ℓ w).2
  giveUp_other : ∀ {i ℓ w}, I.owner ℓ ≠ i → I.agree i w (M.giveUp ℓ w).2
  agree_clean : ∀ {i v w}, I.agree i v w → I.clean i w → I.clean i v
  serve_owner : ∀ ℓ q, I.owner (M.serve ℓ q).1 = I.owner ℓ
  serve_only : ∀ {ℓ q}, I.reqOk (I.owner ℓ) q → I.Only (I.owner ℓ) (M.serve ℓ q).2

/-! ## One move -/

variable {I}

/-- A step keeps a thread within its owner's part. -/
theorem step_only (hI : I.Lawful) {i : ι} {t t' : Thread S L α} {w w' : W}
    (ht : I.ThreadOnly i t) (h : t.step M w = some (t', w')) : I.ThreadOnly i t' := by
  induction t generalizing w w' with
  | run ℓ p =>
    rcases Thread.run_step_cases M h with ⟨e, k, rfl, rfl, -⟩ | ⟨q, k, rfl, rfl, -⟩
    · exact ⟨ht.1, ht.2.2 _⟩
    · obtain ⟨ho, hq, hk⟩ := ht
      have hs := hI.serve_only (ℓ := ℓ) (q := q) (ho.symm ▸ hq)
      rw [ho] at hs
      exact ⟨ho, hk, (hI.serve_owner ℓ q).trans ho, hs⟩
  | wait ℓ k c ih =>
    rcases Thread.wait_step_cases M h with ⟨ℓ', r, rfl, rfl, -⟩ | ⟨c', hc, rfl⟩
    · exact ⟨ht.1, ht.2.1 r⟩
    · exact ⟨ht.1, ht.2.1, ih ht.2.2 hc⟩

/-- Giving up keeps both the thread and the orphan within the part, and
    leaves a mark on the owner. -/
theorem expire_only (hI : I.Lawful) {i : ι} {t t' : Thread S L α} {o : Thread S L S.Resp} {d : Nat}
    {w w' : W} (ht : I.ThreadOnly i t) (h : t.expire M d w = some (t', o, w')) :
    I.ThreadOnly i t' ∧ I.ThreadOnly i o ∧ ¬I.clean i w' ∧ ∀ j, i ≠ j → I.agree j w w' := by
  induction t generalizing d w w' with
  | run ℓ p => cases d <;> cases h
  | wait ℓ k c ih =>
    rcases Thread.wait_expire_cases M h with ⟨rfl, rfl, rfl⟩ | ⟨c', d', hc, rfl⟩
    · obtain ⟨rfl, hk, hc⟩ := ht
      exact ⟨⟨rfl, hk _⟩, hc, hI.giveUp_own ℓ w, fun j hj => hI.giveUp_other hj⟩
    · obtain ⟨h₁, h₂, h₃⟩ := ih ht.2.2 hc
      exact ⟨⟨ht.1, ht.2.1, h₁⟩, h₂, h₃⟩

/-- A step leaves the parts of the other owners alone, and clears no mark. -/
theorem step_frame (hI : I.Lawful) {i : ι} {t t' : Thread S L α} {w w' : W}
    (ht : I.ThreadOnly i t) (h : t.step M w = some (t', w')) :
    (∀ j, i ≠ j → I.agree j w w') ∧ (I.clean i w' → I.clean i w) := by
  induction t generalizing w w' with
  | run ℓ p =>
    obtain ⟨rfl, hp⟩ := ht
    rcases Thread.run_step_cases M h with ⟨e, k, rfl, -, rfl⟩ | ⟨q, k, rfl, -, rfl⟩
    · exact ⟨fun j hj => hI.act_other hp.1 hj, hI.act_clean hp.1⟩
    · exact ⟨fun j _ => hI.refl j _, id⟩
  | wait ℓ k c ih =>
    rcases Thread.wait_step_cases M h with ⟨ℓ', r, rfl, -, rfl⟩ | ⟨c', hc, -⟩
    · exact ⟨fun j _ => hI.refl j _, id⟩
    · exact ih ht.2.2 hc

/-- The same step can be made in any world that agrees for the owner. -/
theorem step_agree (hI : I.Lawful) {i : ι} {t t' : Thread S L α} {v w w' : W}
    (ht : I.ThreadOnly i t) (hv : I.agree i v w) (h : t.step M w = some (t', w')) :
    ∃ v', t.step M v = some (t', v') ∧ I.agree i v' w' := by
  induction t generalizing w w' with
  | run ℓ p =>
    obtain ⟨rfl, hp⟩ := ht
    rcases Thread.run_step_cases M h with ⟨e, k, rfl, rfl, rfl⟩ | ⟨q, k, rfl, rfl, rfl⟩
    · obtain ⟨ha, hw⟩ := hI.act_own hp.1 hv
      exact ⟨(M.act ℓ e v).2, by rw [Thread.step, ha], hw⟩
    · exact ⟨v, rfl, hv⟩
  | wait ℓ k c ih =>
    rcases Thread.wait_step_cases M h with ⟨ℓ', r, rfl, rfl, rfl⟩ | ⟨c', hc, rfl⟩
    · exact ⟨v, rfl, hv⟩
    · -- the callee has not returned, or it could not have moved
      obtain ⟨v', hs, hv'⟩ := ih ht.2.2 hv hc
      refine ⟨v', ?_, hv'⟩
      have hnone : c.result? = none := by
        cases hr : c.result? with
        | none => rfl
        | some r =>
          obtain ⟨ℓ', rfl⟩ := Thread.result?_eq_some.mp hr
          cases hc
      simp [Thread.step, hnone, hs]

/-! ## What a thread completes to -/

/-- Run by itself from here, the thread ends with `a` in the world `w'`. -/
def Completes (M : Distributed S L W) {α : Type} : Thread S L α → W → α → W → Prop
  | .run ℓ p, w, a, w' => M.Returns ℓ p w a w'
  | .wait ℓ k callee, w, a, w' => ∃ r w₁, Completes M callee w r w₁ ∧ M.Returns ℓ (k r) w₁ a w'

/-- A step does not change what a thread completes to. -/
theorem completes_step {t t' : Thread S L α} {w w' wf : W} {a : α}
    (hc : Completes M t w a wf) (h : t.step M w = some (t', w')) : Completes M t' w' a wf := by
  induction t generalizing w w' wf with
  | run ℓ p =>
    rcases Thread.run_step_cases M h with ⟨e, k, rfl, rfl, rfl⟩ | ⟨q, k, rfl, rfl, rfl⟩
    · exact Semantics.returns_op.mp hc
    · exact Semantics.returns_rpc.mp hc
  | wait ℓ k c ih =>
    obtain ⟨r₁, w₁, hr, hk⟩ := hc
    rcases Thread.wait_step_cases M h with ⟨ℓ', r, rfl, rfl, rfl⟩ | ⟨c', hs, rfl⟩
    · obtain ⟨rfl, rfl⟩ := Semantics.returns_ret.mp hr
      exact hk
    · exact ⟨r₁, w₁, ih hr hs, hk⟩

/-! ## Interleaved runs -/

/-- The owners start their programs at their locations. -/
def start (w : W) (loc : ι → L) (prog : ι → Prog S α) : Config S L W ι α :=
  ⟨w, fun i => .run (loc i) (prog i), []⟩

/-- What every step keeps: threads stay within their owners' parts,
    orphans have marked owners, and the thread of an unmarked owner stands
    where it would by itself in a world that agrees with this one. -/
structure Kept (I : Isolation M ι) (w₀ : W) (loc : ι → L) (prog : ι → Prog S α)
    (c : Config S L W ι α) : Prop where
  main : ∀ i, I.ThreadOnly i (c.main i)
  orphans : ∀ o ∈ c.orphans, ∃ i, I.ThreadOnly i o ∧ ¬I.clean i c.world
  solo : ∀ i, I.clean i c.world → ∃ v, I.agree i v c.world ∧
    ∀ a wf, M.Returns (loc i) (prog i) w₀ a wf → Completes M (c.main i) v a wf

variable [DecidableEq ι] {E : W → W → Prop} {w₀ : W} {loc : ι → L} {prog : ι → Prog S α}

/-- A move of owner `i` keeps the marks of everyone: a clean owner was
    clean before. -/
theorem clean_of_frame (hI : I.Lawful) {i : ι} {w w' : W}
    (hframe : ∀ j, i ≠ j → I.agree j w w') (hown : I.clean i w' → I.clean i w) (j : ι)
    (hj : I.clean j w') : I.clean j w := by
  by_cases hij : i = j
  · subst hij
    exact hown hj
  · exact hI.agree_clean (hframe j hij) hj

/-- What a move of owner `i` has to establish, the rest being framed. -/
theorem Kept.of_move (hI : I.Lawful) {c c' : Config S L W ι α} (h : Kept I w₀ loc prog c) {i : ι}
    (hframe : ∀ j, i ≠ j → I.agree j c.world c'.world)
    (hown : I.clean i c'.world → I.clean i c.world)
    (hothers : ∀ j, i ≠ j → c'.main j = c.main j) (hmain : I.ThreadOnly i (c'.main i))
    (horphans : ∀ o ∈ c'.orphans, o ∈ c.orphans ∨ I.ThreadOnly i o ∧ ¬I.clean i c'.world)
    (hsolo : I.clean i c'.world → ∃ v, I.agree i v c'.world ∧
      ∀ a wf, M.Returns (loc i) (prog i) w₀ a wf → Completes M (c'.main i) v a wf) :
    Kept I w₀ loc prog c' := by
  have hclean := clean_of_frame hI hframe hown
  constructor
  · intro j
    -- only i has moved, all others are as they were
    by_cases hij : i = j
    · exact hij ▸ hmain
    · rw [hothers j hij]
      exact h.main j
  · intro o ho
    rcases horphans o ho with hold | hnew
    · obtain ⟨j, hoj, hdirty⟩ := h.orphans o hold
      exact ⟨j, hoj, fun hc => hdirty (hclean j hc)⟩
    · exact ⟨i, hnew⟩
  · intro j hj
    by_cases hij : i = j
    · subst hij
      exact hsolo hj
    · obtain ⟨v, hv, hret⟩ := h.solo j (hclean j hj)
      rw [hothers j hij]
      exact ⟨v, hI.trans hv (hframe j hij), hret⟩

/-- A move of a main thread. -/
theorem Kept.main_move (hI : I.Lawful) {c : Config S L W ι α} (h : Kept I w₀ loc prog c) {i : ι}
    {t' : Thread S L α} {os : List (Thread S L S.Resp)} {w' : W}
    (hm : (c.main i).Moves M c.world t' os w') :
    Kept I w₀ loc prog ⟨w', Function.update c.main i t', os ++ c.orphans⟩ := by
  have hothers : ∀ j, i ≠ j → Function.update c.main i t' j = c.main j :=
    fun j hij => Function.update_of_ne (Ne.symm hij) _ _
  have hself : Function.update c.main i t' i = t' := Function.update_self _ _ _
  cases hm with
  | step hstep =>
    have hti := h.main i
    obtain ⟨hframe, hown⟩ := step_frame hI hti hstep
    refine h.of_move hI hframe hown hothers ?_ (fun o ho => .inl ho) fun hc => ?_
    · show I.ThreadOnly i (Function.update c.main i t' i)
      rw [hself]
      exact step_only hI hti hstep
    · -- the thread makes the same step in the world it would be in by itself
      obtain ⟨v, hv, hret⟩ := h.solo i (hown hc)
      obtain ⟨v', hsv, hv'⟩ := step_agree hI hti hv hstep
      refine ⟨v', hv', fun a wf ha => ?_⟩
      show Completes M (Function.update c.main i t' i) v' a wf
      rw [hself]
      exact completes_step (hret a wf ha) hsv
  | @expire _ _ _ o d hexp =>
    -- a timeout is a mark against i, so nothing is claimed of it any more
    obtain ⟨ht', ho', hdirty, hframe⟩ := expire_only hI (h.main i) hexp
    refine h.of_move hI hframe (fun hc => absurd hc hdirty) hothers ?_ ?_
      fun hc => absurd hc hdirty
    · show I.ThreadOnly i (Function.update c.main i t' i)
      rw [hself]
      exact ht'
    · intro x hx
      rcases List.mem_cons.mp hx with rfl | hx
      · exact .inr ⟨ho', hdirty⟩
      · exact .inl hx

/-- A move of an orphan: its owner is marked, and stays so. -/
theorem Kept.orphan_move (hI : I.Lawful) {c : Config S L W ι α} (h : Kept I w₀ loc prog c)
    {before after : List (Thread S L S.Resp)} {t t' : Thread S L S.Resp}
    {os : List (Thread S L S.Resp)} {w' : W} (hsplit : c.orphans = before ++ t :: after)
    (hm : t.Moves M c.world t' os w') :
    Kept I w₀ loc prog ⟨w', c.main, os ++ (before ++ t' :: after)⟩ := by
  obtain ⟨i, hti, hdirty⟩ := h.orphans t (by rw [hsplit]; simp)
  have hmove : (∀ j, i ≠ j → I.agree j c.world w') ∧ ¬I.clean i w' ∧ I.ThreadOnly i t' ∧
      ∀ o ∈ os, I.ThreadOnly i o := by
    -- whatever an orphan does, its owner was marked already
    cases hm with
    | step hstep =>
      obtain ⟨hframe, hown⟩ := step_frame hI hti hstep
      exact ⟨hframe, fun hc => hdirty (hown hc), step_only hI hti hstep, by simp⟩
    | expire d hexp =>
      obtain ⟨ht', ho', hd, hframe⟩ := expire_only hI hti hexp
      exact ⟨hframe, hd, ht', by simpa using ho'⟩
  obtain ⟨hframe, hd, ht', hos⟩ := hmove
  refine h.of_move hI hframe (fun hc => absurd hc hd) (fun _ _ => rfl) (h.main i) ?_
    fun hc => absurd hc hd
  intro x hx
  rcases List.mem_append.mp hx with hx | hx
  · exact .inr ⟨hos x hx, hd⟩
  · rcases List.mem_append.mp hx with hx | hx
    · exact .inl (by rw [hsplit]; exact List.mem_append_left _ hx)
    · rcases List.mem_cons.mp hx with rfl | hx
      · exact .inr ⟨ht', hd⟩
      · exact .inl (by rw [hsplit]; simp [hx])

/-- Every step of the configuration keeps what `Kept` says. -/
theorem Kept.step (hI : I.Lawful) (hE : ∀ w w', E w w' → ∀ i, I.agree i w w')
    {c c' : Config S L W ι α} (h : Kept I w₀ loc prog c) (hs : Config.Step M E c c') :
    Kept I w₀ loc prog c' := by
  cases hs with
  | main i hm => exact h.main_move hI hm
  | orphan hsplit hm => exact h.orphan_move hI hsplit hm
  | env he =>
    refine ⟨h.main, fun o ho => ?_, fun j hj => ?_⟩
    · obtain ⟨j, hoj, hdj⟩ := h.orphans o ho
      exact ⟨j, hoj, fun hc => hdj (hI.agree_clean (hE _ _ he j) hc)⟩
    · obtain ⟨v, hv, hret⟩ := h.solo j (hI.agree_clean (hE _ _ he j) hj)
      exact ⟨v, hI.trans hv (hE _ _ he j), hret⟩

/-- **Isolation**: in every interleaving, an owner whose thread has finished
    without a fault has the result it would have had by itself, and its
    part of the world is as it would have been. -/
theorem isolated (hI : I.Lawful) (hE : ∀ w w', E w w' → ∀ i, I.agree i w w')
    (hloc : ∀ i, I.owner (loc i) = i) (hprog : ∀ i, I.Only i (prog i))
    {c : Config S L W ι α} (hreach : Config.Reaches M E (start w₀ loc prog) c) {i : ι}
    (hclean : I.clean i c.world) {b : α} (hres : (c.main i).result? = some b) {a : α} {wf : W}
    (hsolo : M.Returns (loc i) (prog i) w₀ a wf) : b = a ∧ I.agree i wf c.world := by
  have hinit : Kept I w₀ loc prog (start w₀ loc prog) :=
    ⟨fun i => ⟨hloc i, hprog i⟩, by simp [start],
      fun i _ => ⟨w₀, hI.refl i w₀, fun _ _ hr => hr⟩⟩
  have hkept := hreach.invariant hinit fun _ _ h hs => h.step hI hE hs
  obtain ⟨v, hv, hret⟩ := hkept.solo i hclean
  have hcomp := hret a wf hsolo
  obtain ⟨ℓ, hrun⟩ := Thread.result?_eq_some.mp hres
  rw [hrun] at hcomp
  obtain ⟨rfl, rfl⟩ := Semantics.returns_ret.mp hcomp
  exact ⟨rfl, hv⟩

end Isolation

end Framework
