import HopVault.Framework.Prog

/-! # Programs over a shared state

    The handlers of a service are programs whose operations act on one
    state. What an operation answers and does is a relation, so that it
    may depend on a clock, on chance or on an iteration order. A program
    runs by itself, or while others change the state between any two of
    its operations. -/

namespace Framework

variable {S : Sig} {σ : Type}

/-- What operations may answer, and do to the state. -/
abbrev Behavior (S : Sig) (σ : Type) : Type := (s : σ) → (e : S.Op) → S.Ans e → σ → Prop

/-! ## Alone -/

/-- Run by itself in the state `s`, the program returns `a` and leaves `s'`. -/
inductive Runs (B : Behavior S σ) : {α : Type} → σ → Prog S α → α → σ → Prop
  | ret {α : Type} {s : σ} {a : α} : Runs B s (.ret a) a s
  | op {α : Type} {s s' s'' : σ} {e : S.Op} {k : S.Ans e → Prog S α} {b : S.Ans e} {a : α} :
      B s e b s' → Runs B s' (k b) a s'' → Runs B s (.op e k) a s''

namespace Runs

variable {B : Behavior S σ} {α β : Type} {s s' : σ}

@[simp] theorem ret_iff {a b : α} : Runs B s (Prog.ret a) b s' ↔ b = a ∧ s' = s := by
  constructor
  · intro h
    cases h
    exact ⟨rfl, rfl⟩
  · rintro ⟨rfl, rfl⟩
    exact .ret

@[simp] theorem op_iff {e : S.Op} {k : S.Ans e → Prog S α} {a : α} :
    Runs B s (Prog.op e k) a s' ↔ ∃ b s₁, B s e b s₁ ∧ Runs B s₁ (k b) a s' := by
  constructor
  · intro h
    cases h with
    | op he hk => exact ⟨_, _, he, hk⟩
  · rintro ⟨b, s₁, he, hk⟩
    exact .op he hk

/-- More may happen where operations may do more. -/
theorem weaken {B' : Behavior S σ} {p : Prog S α} {a : α} (hrun : Runs B s p a s')
    (h : ∀ s e b s', B s e b s' → B' s e b s') : Runs B' s p a s' := by
  induction hrun with
  | ret => exact .ret
  | op he _ ih => exact .op (h _ _ _ _ he) ih

/-- **Footprint rule**: what every operation of the program keeps, the
    program keeps, and its results are as its footprint says. -/
theorem of_all {p : Prog S α} {P : S.Op → Prop} {R : S.Req → Prop} {T : α → Prop} {I : σ → Prop}
    {a : α} (hrun : Runs B s p a s') (hp : p.All P R T) (hI : I s)
    (hop : ∀ e, P e → ∀ s b s', I s → B s e b s' → I s') : T a ∧ I s' := by
  induction hrun with
  | ret => exact ⟨hp, hI⟩
  | op he _ ih => exact ih (hp.2 _) (hop _ hp.1 _ _ _ hI he)

end Runs

/-! ## While others move -/

/-- Run from `s` while the environment may step between any two operations,
    the program returns `a`. `seen` are the states it ran through. -/
inductive Interleaved (B : Behavior S σ) (E : σ → σ → Prop) :
    {α : Type} → σ → Prog S α → List σ → α → Prop
  | ret {α : Type} {s : σ} {a : α} : Interleaved B E s (.ret a) [s] a
  | op {α : Type} {s s' : σ} {e : S.Op} {k : S.Ans e → Prog S α} {b : S.Ans e} {seen : List σ}
      {a : α} : B s e b s' → Interleaved B E s' (k b) seen a →
      Interleaved B E s (.op e k) (s :: seen) a
  | env {α : Type} {s s' : σ} {p : Prog S α} {seen : List σ} {a : α} :
      E s s' → Interleaved B E s' p seen a → Interleaved B E s p (s :: seen) a

namespace Interleaved

variable {B : Behavior S σ} {E : σ → σ → Prop} {α : Type} {s : σ} {seen : List σ}

/-- The result of a program that has returned. -/
theorem of_ret {a b : α} (hrun : Interleaved B E s (Prog.ret a) seen b) : b = a := by
  generalize hp : Prog.ret a = p at hrun
  induction hrun with
  | ret =>
    cases hp
    rfl
  | op _ _ _ => cases hp
  | env _ _ ih => exact ih hp

/-- The moment of the next operation: the environment has led to a state
    that the run goes through, and the program goes on from there. -/
theorem of_op {e : S.Op} {k : S.Ans e → Prog S α} {a : α} {I : σ → Prop}
    (hrun : Interleaved B E s (Prog.op e k) seen a) (hI : I s)
    (henv : ∀ s s', I s → E s s' → I s') :
    ∃ s₁ ∈ seen, I s₁ ∧ ∃ b s₂ later, B s₁ e b s₂ ∧ later ⊆ seen ∧
      Interleaved B E s₂ (k b) later a := by
  generalize hp : Prog.op e k = p at hrun
  induction hrun with
  | ret => cases hp
  | @op s s' _ _ b later _ he hk _ =>
    cases hp
    exact ⟨s, by simp, hI, b, s', later, he, List.subset_cons_self _ _, hk⟩
  | env he _ ih =>
    obtain ⟨s₁, hmem, hI₁, b, s₂, later, hb, hsub, hk⟩ := ih (henv _ _ hI he) hp
    exact ⟨s₁, List.mem_cons_of_mem _ hmem, hI₁, b, s₂, later, hb,
      fun x hx => List.mem_cons_of_mem _ (hsub hx), hk⟩

/-- A program that runs by itself is interleaved with nothing. -/
theorem of_runs {p : Prog S α} {a : α} {s' : σ} (hrun : Runs B s p a s') :
    ∃ seen, Interleaved B E s p seen a := by
  induction hrun with
  | ret => exact ⟨_, .ret⟩
  | op he _ ih =>
    obtain ⟨seen, hseen⟩ := ih
    exact ⟨_, .op he hseen⟩

end Interleaved

end Framework
