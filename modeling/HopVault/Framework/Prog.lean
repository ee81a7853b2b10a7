/-! # Programs that call other programs

    A program of a distributed system as a tree of interactions: it
    returns, performs a local operation and goes on with its answer, or
    calls a remote program and goes on with the response. What operations
    do and who serves a call is left to a semantics; the same tree is
    executed, run under an interleaving, or reasoned about. -/

namespace Framework

/-- The interactions of a system: local operations with their answers,
    and remote calls. -/
structure Sig where
  Op : Type
  Ans : Op → Type
  Req : Type
  Resp : Type

/-- A program with a result of type `α`. -/
inductive Prog (S : Sig) (α : Type) : Type where
  | ret (a : α)
  | op (e : S.Op) (k : S.Ans e → Prog S α)
  | rpc (q : S.Req) (k : S.Resp → Prog S α)

namespace Prog

variable {S : Sig} {α β γ : Type}

/-- Run `p`, then `f` on its result. -/
def bind : Prog S α → (α → Prog S β) → Prog S β
  | ret a, f => f a
  | op e k, f => op e fun a => (k a).bind f
  | rpc q k, f => rpc q fun r => (k r).bind f

instance : Monad (Prog S) where
  pure := ret
  bind := bind

/-- Perform one operation. -/
def perform (e : S.Op) : Prog S (S.Ans e) := op e ret

/-- Make one remote call. -/
def call (q : S.Req) : Prog S S.Resp := rpc q ret

@[simp] theorem pure_eq (a : α) : (pure a : Prog S α) = ret a := rfl

@[simp] theorem ret_bind (a : α) (f : α → Prog S β) : ret a >>= f = f a := rfl

@[simp] theorem op_bind (e : S.Op) (k : S.Ans e → Prog S α) (f : α → Prog S β) :
    op e k >>= f = op e fun a => k a >>= f := rfl

@[simp] theorem rpc_bind (q : S.Req) (k : S.Resp → Prog S α) (f : α → Prog S β) :
    rpc q k >>= f = rpc q fun r => k r >>= f := rfl

@[simp] theorem perform_bind (e : S.Op) (f : S.Ans e → Prog S β) :
    perform e >>= f = op e f := rfl

@[simp] theorem call_bind (q : S.Req) (f : S.Resp → Prog S β) : call q >>= f = rpc q f := rfl

@[simp] theorem bind_ret (p : Prog S α) : p >>= ret = p := by
  induction p with
  | ret a => rfl
  | op e k ih =>
    show op e (fun a => k a >>= ret) = op e k
    exact congrArg (op e) (funext ih)
  | rpc q k ih =>
    show rpc q (fun r => k r >>= ret) = rpc q k
    exact congrArg (rpc q) (funext ih)

@[simp] theorem bind_assoc (p : Prog S α) (f : α → Prog S β) (g : β → Prog S γ) :
    p >>= f >>= g = p >>= fun a => f a >>= g := by
  induction p with
  | ret a => rfl
  | op e k ih =>
    show op e (fun a => k a >>= f >>= g) = op e fun a => k a >>= fun a => f a >>= g
    exact congrArg (op e) (funext ih)
  | rpc q k ih =>
    show rpc q (fun r => k r >>= f >>= g) = rpc q fun r => k r >>= fun a => f a >>= g
    exact congrArg (rpc q) (funext ih)

/-! ## Footprints -/

/-- Every operation of the program satisfies `P`, every remote call `R` and
    every result `T`, along every path. -/
def All (P : S.Op → Prop) (R : S.Req → Prop) (T : α → Prop) : Prog S α → Prop
  | ret a => T a
  | op e k => P e ∧ ∀ a, All P R T (k a)
  | rpc q k => R q ∧ ∀ r, All P R T (k r)

section

variable {P : S.Op → Prop} {R : S.Req → Prop} {T : α → Prop} {U : β → Prop}

@[simp] theorem all_ret {a : α} : All P R T (ret a : Prog S α) ↔ T a := Iff.rfl

@[simp] theorem all_op {e : S.Op} {k : S.Ans e → Prog S α} :
    (op e k).All P R T ↔ P e ∧ ∀ a, (k a).All P R T := Iff.rfl

@[simp] theorem all_rpc {q : S.Req} {k : S.Resp → Prog S α} :
    (rpc q k).All P R T ↔ R q ∧ ∀ r, (k r).All P R T := Iff.rfl

/-- A weaker claim about the results. -/
theorem All.mono {V : α → Prop} {p : Prog S α} (hp : p.All P R T) (h : ∀ a, T a → V a) :
    p.All P R V := by
  induction p with
  | ret a => exact h a hp
  | op e k ih => exact ⟨hp.1, fun a => ih a (hp.2 a)⟩
  | rpc q k ih => exact ⟨hp.1, fun r => ih r (hp.2 r)⟩

/-- A sequence of two programs. -/
theorem all_bind {p : Prog S α} {f : α → Prog S β} (hp : p.All P R T)
    (hf : ∀ a, T a → (f a).All P R U) : (p >>= f).All P R U := by
  induction p with
  | ret a => exact hf a hp
  | op e k ih => exact ⟨hp.1, fun a => ih a (hp.2 a)⟩
  | rpc q k ih => exact ⟨hp.1, fun r => ih r (hp.2 r)⟩

end

/-! ## Possible results -/

/-- Some answers to its operations and calls make the program return `a`.
    Whatever else happens between its operations, a program returns
    nothing but a possible result. -/
inductive Yields : Prog S α → α → Prop
  | ret {a : α} : Yields (.ret a) a
  | op {e : S.Op} {k : S.Ans e → Prog S α} {a : α} (b : S.Ans e) : Yields (k b) a → Yields (.op e k) a
  | rpc {q : S.Req} {k : S.Resp → Prog S α} {a : α} (r : S.Resp) :
      Yields (k r) a → Yields (.rpc q k) a

section

variable {a b : α}

@[simp] theorem yields_ret : Yields (ret a : Prog S α) b ↔ b = a := by
  constructor
  · intro h
    cases h
    rfl
  · intro h
    rw [h]
    exact .ret

@[simp] theorem yields_op {e : S.Op} {k : S.Ans e → Prog S α} :
    Yields (op e k) b ↔ ∃ x, Yields (k x) b := by
  constructor
  · intro h
    cases h with
    | op x h => exact ⟨x, h⟩
  · intro h
    obtain ⟨x, h⟩ := h
    exact .op x h

@[simp] theorem yields_rpc {q : S.Req} {k : S.Resp → Prog S α} :
    Yields (rpc q k) b ↔ ∃ r, Yields (k r) b := by
  constructor
  · intro h
    cases h with
    | rpc r h => exact ⟨r, h⟩
  · intro h
    obtain ⟨r, h⟩ := h
    exact .rpc r h

/-- A sequence of two programs. -/
theorem yields_bind {p : Prog S α} {f : α → Prog S β} {c : β} :
    Yields (p >>= f) c ↔ ∃ a, Yields p a ∧ Yields (f a) c := by
  -- induction on the program; the existentials only change places
  induction p with
  | ret a => simp
  | op e k ih =>
    simp only [op_bind, yields_op, ih]
    constructor
    · intro h
      obtain ⟨x, a, hk, hf⟩ := h
      exact ⟨a, ⟨x, hk⟩, hf⟩
    · intro h
      obtain ⟨a, ⟨x, hk⟩, hf⟩ := h
      exact ⟨x, a, hk, hf⟩
  | rpc q k ih =>
    simp only [rpc_bind, yields_rpc, ih]
    constructor
    · intro h
      obtain ⟨r, a, hk, hf⟩ := h
      exact ⟨a, ⟨r, hk⟩, hf⟩
    · intro h
      obtain ⟨a, ⟨r, hk⟩, hf⟩ := h
      exact ⟨r, a, hk, hf⟩

/-- What is known of every result is known of a possible one. -/
theorem Yields.of_all {P : S.Op → Prop} {R : S.Req → Prop} {T : α → Prop} {p : Prog S α}
    (h : Yields p a) (hp : p.All P R T) : T a := by
  induction h with
  | ret => exact hp
  | op x _ ih => exact ih (hp.2 x)
  | rpc r _ ih => exact ih (hp.2 r)

end

end Prog

end Framework
