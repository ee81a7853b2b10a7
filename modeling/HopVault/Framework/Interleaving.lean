import HopVault.Framework.Semantics
import Mathlib.Logic.Function.Basic
import Mathlib.Logic.Relation

/-! # Interleaved runs with time-outs

    Many programs run at once over one world. A thread is a program
    together with the remote calls it is waiting for; the innermost one
    moves. Any caller may give up waiting: it goes on with an error, and
    the call it gave up on becomes an *orphan*, which the scheduler may
    still run, at once, much later or never. A lost request, a late
    request, a lost response and a time-out are all runs of this kind.

    Between two moves the environment may change the world as a relation
    allows. -/

namespace Framework

/-- A semantics with what a caller sees when it gives up waiting. -/
structure Distributed (S : Sig) (L W : Type) extends Semantics S L W where
  giveUp : L → W → S.Resp × W

/-! ## Threads -/

/-- A running program, or one that waits for the response of a callee. -/
inductive Thread (S : Sig) (L : Type) : Type → Type 1 where
  | run {α : Type} (ℓ : L) (p : Prog S α) : Thread S L α
  | wait {α : Type} (ℓ : L) (k : S.Resp → Prog S α) (callee : Thread S L S.Resp) : Thread S L α

namespace Thread

variable {S : Sig} {L W α : Type} (M : Distributed S L W)

/-- The result of a thread that has finished. -/
def result? : Thread S L α → Option α
  | run _ (.ret a) => some a
  | _ => none

/-- A move of the innermost program. -/
def step {α : Type} : Thread S L α → W → Option (Thread S L α × W)
  | run _ (.ret _), _ => none
  | run ℓ (.op e k), w => some (run ℓ (k (M.act ℓ e w).1), (M.act ℓ e w).2)
  | run ℓ (.rpc q k), w => some (wait ℓ k (run (M.serve ℓ q).1 (M.serve ℓ q).2), w)
  | wait ℓ k callee, w =>
    match callee.result? with
    | some r => some (run ℓ (k r), w)
    | none => (callee.step w).map fun x => (wait ℓ k x.1, x.2)

/-- The caller at depth `d` gives up; the call it waited for is orphaned. -/
def expire {α : Type} : Nat → Thread S L α → W → Option (Thread S L α × Thread S L S.Resp × W)
  | _, run _ _, _ => none
  | 0, wait ℓ k callee, w => some (run ℓ (k (M.giveUp ℓ w).1), callee, (M.giveUp ℓ w).2)
  | d + 1, wait ℓ k callee, w => (expire d callee w).map fun x => (wait ℓ k x.1, x.2.1, x.2.2)

/-- A move of a thread; `os` are the calls it orphans. -/
inductive Moves : Thread S L α → W → Thread S L α → List (Thread S L S.Resp) → W → Prop
  | step {t t' : Thread S L α} {w w' : W} :
      t.step M w = some (t', w') → Moves t w t' [] w'
  | expire {t t' : Thread S L α} {w w' : W} {o : Thread S L S.Resp} (d : Nat) :
      t.expire M d w = some (t', o, w') → Moves t w t' [o] w'

@[simp] theorem result?_eq_some {t : Thread S L α} {a : α} :
    t.result? = some a ↔ ∃ ℓ, t = run ℓ (.ret a) := by
  cases t with
  | run ℓ p => cases p <;> simp [result?]
  | wait ℓ k callee => simp [result?]

/-- What a running thread does: an effect, or a call. -/
theorem run_step_cases {t' : Thread S L α} {ℓ : L} {p : Prog S α} {w w' : W}
    (h : (run ℓ p).step M w = some (t', w')) :
    (∃ e k, p = .op e k ∧ t' = run ℓ (k (M.act ℓ e w).1) ∧ w' = (M.act ℓ e w).2) ∨
    ∃ q k, p = .rpc q k ∧ t' = wait ℓ k (run (M.serve ℓ q).1 (M.serve ℓ q).2) ∧ w' = w := by
  cases p with
  | ret a => cases h
  | op e k =>
    simp only [step, Option.some.injEq, Prod.mk.injEq] at h
    exact .inl ⟨e, k, rfl, h.1.symm, h.2.symm⟩
  | rpc q k =>
    simp only [step, Option.some.injEq, Prod.mk.injEq] at h
    exact .inr ⟨q, k, rfl, h.1.symm, h.2.symm⟩

/-- What a waiting thread does: it takes the answer of its callee, or lets
    the callee move. -/
theorem wait_step_cases {t' : Thread S L α} {ℓ : L} {k : S.Resp → Prog S α}
    {c : Thread S L S.Resp} {w w' : W} (h : (wait ℓ k c).step M w = some (t', w')) :
    (∃ ℓ' r, c = run ℓ' (.ret r) ∧ t' = run ℓ (k r) ∧ w' = w) ∨
    ∃ c', c.step M w = some (c', w') ∧ t' = wait ℓ k c' := by
  simp only [step] at h
  split at h
  · rename_i r hr
    obtain ⟨ℓ', rfl⟩ := result?_eq_some.mp hr
    simp only [Option.some.injEq, Prod.mk.injEq] at h
    exact .inl ⟨ℓ', r, rfl, h.1.symm, h.2.symm⟩
  · obtain ⟨x, hx, he⟩ := Option.map_eq_some_iff.mp h
    obtain ⟨c', w''⟩ := x
    simp only [Prod.mk.injEq] at he
    obtain ⟨rfl, rfl⟩ := he
    exact .inr ⟨c', hx, rfl⟩

/-- What giving up does to a waiting thread: it abandons its callee, or the
    callee gives up one of its own. -/
theorem wait_expire_cases {t' : Thread S L α} {ℓ : L} {k : S.Resp → Prog S α}
    {c o : Thread S L S.Resp} {d : Nat} {w w' : W}
    (h : (wait ℓ k c).expire M d w = some (t', o, w')) :
    (o = c ∧ t' = run ℓ (k (M.giveUp ℓ w).1) ∧ w' = (M.giveUp ℓ w).2) ∨
    ∃ c' d', c.expire M d' w = some (c', o, w') ∧ t' = wait ℓ k c' := by
  cases d with
  | zero =>
    simp only [expire, Option.some.injEq, Prod.mk.injEq] at h
    obtain ⟨rfl, rfl, rfl⟩ := h
    exact .inl ⟨rfl, rfl, rfl⟩
  | succ d =>
    simp only [expire] at h
    obtain ⟨x, hx, he⟩ := Option.map_eq_some_iff.mp h
    obtain ⟨c', o', w''⟩ := x
    simp only [Prod.mk.injEq] at he
    obtain ⟨rfl, rfl, rfl⟩ := he
    exact .inr ⟨c', d, hx, rfl⟩

end Thread

/-! ## Configurations -/

/-- The world, the main threads and the orphaned calls. -/
structure Config (S : Sig) (L W ι α : Type) where
  world : W
  main : ι → Thread S L α
  orphans : List (Thread S L S.Resp)

namespace Config

variable {S : Sig} {L W ι α : Type} [DecidableEq ι] (M : Distributed S L W) (E : W → W → Prop)

/-- One step of a configuration. -/
inductive Step : Config S L W ι α → Config S L W ι α → Prop
  | main {c : Config S L W ι α} (i : ι) {t' : Thread S L α} {os : List (Thread S L S.Resp)}
      {w' : W} : (c.main i).Moves M c.world t' os w' →
      Step c ⟨w', Function.update c.main i t', os ++ c.orphans⟩
  | orphan {c : Config S L W ι α} {before after : List (Thread S L S.Resp)}
      {t t' : Thread S L S.Resp} {os : List (Thread S L S.Resp)} {w' : W} :
      c.orphans = before ++ t :: after → t.Moves M c.world t' os w' →
      Step c ⟨w', c.main, os ++ (before ++ t' :: after)⟩
  | env {c : Config S L W ι α} {w' : W} : E c.world w' → Step c { c with world := w' }

/-- Some interleaving leads from the first configuration to the second. -/
def Reaches : Config S L W ι α → Config S L W ι α → Prop := Relation.ReflTransGen (Step M E)

variable {M E}

/-- **Invariant rule**: what holds at the start and is kept by every step
    holds in every configuration that can be reached. -/
theorem Reaches.invariant {c₀ c : Config S L W ι α} {P : Config S L W ι α → Prop}
    (hreach : Reaches M E c₀ c) (hinit : P c₀) (hstep : ∀ c c', P c → Step M E c c' → P c') :
    P c := by
  induction hreach with
  | refl => exact hinit
  | tail _ hs ih => exact hstep _ _ ih hs

end Config

/-! ## Schedules -/

/-- A choice of the scheduler. -/
inductive Move (ι : Type) where
  | main (i : ι)
  | timeout (i : ι) (depth : Nat)
  | orphan (n : Nat)
  deriving DecidableEq, Repr

namespace Config

variable {S : Sig} {L W ι α : Type} [DecidableEq ι] (M : Distributed S L W)

/-- Make one move. -/
def move (c : Config S L W ι α) : Move ι → Option (Config S L W ι α)
  | .main i => ((c.main i).step M c.world).map fun x =>
      ⟨x.2, Function.update c.main i x.1, c.orphans⟩
  | .timeout i d => ((c.main i).expire M d c.world).map fun x =>
      ⟨x.2.2, Function.update c.main i x.1, x.2.1 :: c.orphans⟩
  | .orphan n =>
    match c.orphans.drop n with
    | [] => none
    | t :: after => (t.step M c.world).map fun x =>
        ⟨x.2, c.main, c.orphans.take n ++ x.1 :: after⟩

/-- Make a sequence of moves. -/
def play (c : Config S L W ι α) : List (Move ι) → Option (Config S L W ι α)
  | [] => some c
  | m :: ms =>
    match c.move M m with
    | some c' => c'.play ms
    | none => none

variable {M} {E : W → W → Prop}

theorem step_of_move {c c' : Config S L W ι α} {m : Move ι} (h : c.move M m = some c') :
    Step M E c c' := by
  cases m with
  | main i =>
    obtain ⟨x, hx, rfl⟩ := Option.map_eq_some_iff.mp h
    exact .main i (.step hx)
  | timeout i d =>
    obtain ⟨x, hx, rfl⟩ := Option.map_eq_some_iff.mp h
    exact .main i (.expire d hx)
  | orphan n =>
    simp only [move] at h
    split at h
    · cases h
    · rename_i t after hdrop
      obtain ⟨x, hx, rfl⟩ := Option.map_eq_some_iff.mp h
      have hsplit : c.orphans = c.orphans.take n ++ t :: after := by
        rw [← hdrop, List.take_append_drop]
      exact .orphan hsplit (.step hx)

/-- A schedule that can be played is an interleaving. -/
theorem reaches_of_play {ms : List (Move ι)} {c c' : Config S L W ι α}
    (h : c.play M ms = some c') : Reaches M E c c' := by
  induction ms generalizing c with
  | nil =>
    simp only [play, Option.some.injEq] at h
    rw [h]
    exact .refl
  | cons m ms ih =>
    simp only [play] at h
    split at h
    · rename_i c₁ hm
      exact .head (step_of_move hm) (ih h)
    · cases h

end Config

end Framework
