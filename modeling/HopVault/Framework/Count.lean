import HopVault.Framework.Semantics
import Mathlib.Algebra.Order.Monoid.Defs
import Mathlib.Algebra.Order.Group.Nat

/-! # What a run costs

    A run of a program by itself, with what its operations and remote
    calls cost: an operation `e` costs `f e` and a remote call `q` costs
    `g q`, at whatever location it is made. Costs are added in a monoid, so
    that the same rules count one kind of event or several at once. -/

namespace Framework

namespace Semantics

variable {S : Sig} {L W C : Type} [AddCommMonoid C] {α β : Type}

/-- Run by itself, the program returns, and its operations and remote
    calls have cost `n`, those of the programs it calls included. -/
inductive Counts (M : Semantics S L W) (f : S.Op → C) (g : S.Req → C) :
    {α : Type} → L → Prog S α → W → α → W → C → Prop
  | ret {α : Type} {ℓ : L} {a : α} {w : W} : Counts M f g ℓ (.ret a) w a w 0
  | op {α : Type} {ℓ : L} {e : S.Op} {k : S.Ans e → Prog S α} {w w' : W} {a : α} {n : C} :
      Counts M f g ℓ (k (M.act ℓ e w).1) (M.act ℓ e w).2 a w' n →
      Counts M f g ℓ (.op e k) w a w' (f e + n)
  | rpc {α : Type} {ℓ : L} {q : S.Req} {k : S.Resp → Prog S α} {w w₁ w' : W} {r : S.Resp} {a : α}
      {m n : C} :
      Counts M f g (M.serve ℓ q).1 (M.serve ℓ q).2 w r w₁ m → Counts M f g ℓ (k r) w₁ a w' n →
      Counts M f g ℓ (.rpc q k) w a w' (g q + m + n)

variable {M : Semantics S L W} {f : S.Op → C} {g : S.Req → C} {ℓ : L} {w w' : W}

@[simp] theorem counts_ret {a b : α} {n : C} :
    M.Counts f g ℓ (Prog.ret a) w b w' n ↔ b = a ∧ w' = w ∧ n = 0 := by
  constructor
  · intro h
    cases h
    exact ⟨rfl, rfl, rfl⟩
  · rintro ⟨rfl, rfl, rfl⟩
    exact .ret

theorem counts_op {e : S.Op} {k : S.Ans e → Prog S α} {a : α} {n : C} :
    M.Counts f g ℓ (Prog.op e k) w a w' n ↔
      ∃ m, M.Counts f g ℓ (k (M.act ℓ e w).1) (M.act ℓ e w).2 a w' m ∧ n = f e + m := by
  constructor
  · intro h
    cases h with
    | op h => exact ⟨_, h, rfl⟩
  · rintro ⟨m, h, rfl⟩
    exact .op h

theorem counts_rpc {q : S.Req} {k : S.Resp → Prog S α} {a : α} {n : C} :
    M.Counts f g ℓ (Prog.rpc q k) w a w' n ↔
      ∃ r w₁ m₁ m₂, M.Counts f g (M.serve ℓ q).1 (M.serve ℓ q).2 w r w₁ m₁ ∧
        M.Counts f g ℓ (k r) w₁ a w' m₂ ∧ n = g q + m₁ + m₂ := by
  constructor
  · intro h
    cases h with
    | rpc h₁ h₂ => exact ⟨_, _, _, _, h₁, h₂, rfl⟩
  · rintro ⟨r, w₁, m₁, m₂, h₁, h₂, rfl⟩
    exact .rpc h₁ h₂

/-- Every run can be counted. -/
theorem Returns.counts {p : Prog S α} {a : α} (f : S.Op → C) (g : S.Req → C)
    (h : M.Returns ℓ p w a w') : ∃ n, M.Counts f g ℓ p w a w' n := by
  induction h with
  | ret => exact ⟨0, .ret⟩
  | op _ ih =>
    obtain ⟨n, h⟩ := ih
    exact ⟨_, .op h⟩
  | rpc _ _ ih₁ ih₂ =>
    obtain ⟨n₁, h₁⟩ := ih₁
    obtain ⟨n₂, h₂⟩ := ih₂
    exact ⟨_, .rpc h₁ h₂⟩

/-- A run by itself has one outcome and one cost. -/
theorem Counts.unique {p : Prog S α} {a b : α} {w₁ w₂ : W} {n₁ n₂ : C}
    (h₁ : M.Counts f g ℓ p w a w₁ n₁) (h₂ : M.Counts f g ℓ p w b w₂ n₂) :
    a = b ∧ w₁ = w₂ ∧ n₁ = n₂ := by
  induction h₁ generalizing w₂ n₂ with
  | ret =>
    obtain ⟨rfl, rfl, rfl⟩ := counts_ret.mp h₂
    exact ⟨rfl, rfl, rfl⟩
  | op _ ih =>
    obtain ⟨m, h, rfl⟩ := counts_op.mp h₂
    obtain ⟨rfl, rfl, rfl⟩ := ih h
    exact ⟨rfl, rfl, rfl⟩
  | rpc _ _ ih₁ ih₂ =>
    obtain ⟨r, w₃, m₁, m₂, h₃, h₄, rfl⟩ := counts_rpc.mp h₂
    obtain ⟨rfl, rfl, rfl⟩ := ih₁ h₃
    obtain ⟨rfl, rfl, rfl⟩ := ih₂ h₄
    exact ⟨rfl, rfl, rfl⟩

/-- A sequence of two programs costs what both cost. -/
theorem counts_bind {p : Prog S α} {k : α → Prog S β} {b : β} {n : C} :
    M.Counts f g ℓ (p >>= k) w b w' n ↔
      ∃ a w₁ m₁ m₂, M.Counts f g ℓ p w a w₁ m₁ ∧ M.Counts f g ℓ (k a) w₁ b w' m₂ ∧
        n = m₁ + m₂ := by
  -- induction on the program; addition in C is associative, which is all that is used
  induction p generalizing w n with
  | ret a =>
    constructor
    · intro h
      exact ⟨a, w, 0, n, .ret, h, (zero_add n).symm⟩
    · rintro ⟨a', w₁, m₁, m₂, h₁, h₂, rfl⟩
      obtain ⟨rfl, rfl, rfl⟩ := counts_ret.mp h₁
      rw [zero_add]
      exact h₂
  | op e q ih =>
    rw [Prog.op_bind, counts_op]
    constructor
    · rintro ⟨m, h, rfl⟩
      obtain ⟨a, w₁, m₁, m₂, h₁, h₂, rfl⟩ := (ih _).mp h
      exact ⟨a, w₁, _, m₂, .op h₁, h₂, (add_assoc ..).symm⟩
    · rintro ⟨a, w₁, m₁, m₂, h₁, h₂, rfl⟩
      obtain ⟨m, h, rfl⟩ := counts_op.mp h₁
      exact ⟨m + m₂, (ih _).mpr ⟨a, w₁, m, m₂, h, h₂, rfl⟩, add_assoc ..⟩
  | rpc q k' ih =>
    rw [Prog.rpc_bind, counts_rpc]
    constructor
    · rintro ⟨r, w₁, m, m', h, hk, rfl⟩
      obtain ⟨a, w₂, m₁, m₂, h₁, h₂, rfl⟩ := (ih _).mp hk
      exact ⟨a, w₂, _, m₂, .rpc h h₁, h₂, (add_assoc ..).symm⟩
    · rintro ⟨a, w₂, m₁, m₂, h₁, h₂, rfl⟩
      obtain ⟨r, w₁, m, m', h, hk, rfl⟩ := counts_rpc.mp h₁
      exact ⟨r, w₁, m, m' + m₂, h, (ih _).mpr ⟨a, w₂, m', m₂, hk, h₂, rfl⟩, add_assoc ..⟩

/-- A program costs nothing when all it does is free, and all that the
    programs it may call do. -/
theorem Counts.free {p : Prog S α} {P : S.Op → Prop} {R : S.Req → Prop} {T : α → Prop} {a : α}
    {n : C} (h : M.Counts f g ℓ p w a w' n) (hp : p.All P R T) (hop : ∀ e, P e → f e = 0)
    (hreq : ∀ q, R q → g q = 0)
    (hserve : ∀ ℓ q, R q → (M.serve ℓ q).2.All P R fun _ => True) : n = 0 := by
  induction h with
  | ret => rfl
  | op _ ih => rw [hop _ hp.1, ih (hp.2 _), zero_add]
  | rpc _ _ ih₁ ih₂ =>
    rw [hreq _ hp.1, ih₁ (hserve _ _ hp.1), ih₂ (hp.2 _), zero_add, zero_add]

/-! ## Bounds -/

section

variable [PartialOrder C]

/-- Run by itself at `ℓ` in `w`, the program returns, at a cost of at most
    `K`. -/
def EndsWithin (M : Semantics S L W) (f : S.Op → C) (g : S.Req → C) (ℓ : L) (p : Prog S α) (w : W)
    (K : C) : Prop :=
  ∃ a w' n, M.Counts f g ℓ p w a w' n ∧ n ≤ K

theorem EndsWithin.mono {p : Prog S α} {K K' : C} (h : M.EndsWithin f g ℓ p w K) (hK : K ≤ K') :
    M.EndsWithin f g ℓ p w K' := by
  obtain ⟨a, w', n, hn, hle⟩ := h
  exact ⟨a, w', n, hn, hle.trans hK⟩

theorem endsWithin_ret {a : α} : M.EndsWithin f g ℓ (.ret a) w 0 := ⟨a, w, 0, .ret, le_rfl⟩

variable [IsOrderedAddMonoid C]

theorem endsWithin_op {e : S.Op} {k : S.Ans e → Prog S α} {K : C}
    (h : M.EndsWithin f g ℓ (k (M.act ℓ e w).1) (M.act ℓ e w).2 K) :
    M.EndsWithin f g ℓ (.op e k) w (f e + K) := by
  obtain ⟨a, w', n, hn, hle⟩ := h
  exact ⟨a, w', _, .op hn, add_le_add_right hle _⟩

theorem endsWithin_rpc {q : S.Req} {k : S.Resp → Prog S α} {K₁ K₂ : C}
    (hcall : M.EndsWithin f g (M.serve ℓ q).1 (M.serve ℓ q).2 w K₁)
    (hk : ∀ r w₁, M.EndsWithin f g ℓ (k r) w₁ K₂) :
    M.EndsWithin f g ℓ (.rpc q k) w (g q + K₁ + K₂) := by
  obtain ⟨r, w₁, n₁, h₁, hle₁⟩ := hcall
  obtain ⟨a, w', n₂, h₂, hle₂⟩ := hk r w₁
  exact ⟨a, w', _, .rpc h₁ h₂, add_le_add (add_le_add_right hle₁ _) hle₂⟩

theorem endsWithin_bind {p : Prog S α} {k : α → Prog S β} {K₁ K₂ : C}
    (hp : M.EndsWithin f g ℓ p w K₁) (hk : ∀ a w₁, M.EndsWithin f g ℓ (k a) w₁ K₂) :
    M.EndsWithin f g ℓ (p >>= k) w (K₁ + K₂) := by
  obtain ⟨a, w₁, n₁, h₁, hle₁⟩ := hp
  obtain ⟨b, w', n₂, h₂, hle₂⟩ := hk a w₁
  exact ⟨b, w', _, counts_bind.mpr ⟨a, w₁, n₁, n₂, h₁, h₂, rfl⟩, add_le_add hle₁ hle₂⟩

/-- A program without remote calls whose operations are free. -/
theorem endsWithin_of_all {p : Prog S α} {P : S.Op → Prop} {T : α → Prop}
    (h : p.All P (fun _ => False) T) (hfree : ∀ e, P e → f e = 0) :
    M.EndsWithin f g ℓ p w 0 := by
  induction p generalizing w with
  | ret a => exact endsWithin_ret
  | op e k ih =>
    have hrest := endsWithin_op (e := e) (k := k) (ih _ (h.2 (M.act ℓ e w).1))
    rw [hfree e h.1, zero_add] at hrest
    exact hrest
  | rpc q k ih => exact h.1.elim

end

end Semantics

end Framework
