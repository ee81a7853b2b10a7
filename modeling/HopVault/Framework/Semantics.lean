import HopVault.Framework.Prog

/-! # Running a program by itself

    A semantics says what an operation does to the world, and which
    program at which location serves a remote call. It is deterministic:
    what a run cannot foresee (random bits, the answers of other systems)
    is part of the world it starts from.

    `Returns` is the big-step relation of a program that nobody interferes
    with; `exec` computes it, with a bound on the nesting of remote calls. -/

namespace Framework

/-- What operations do, and who serves a remote call. -/
structure Semantics (S : Sig) (L W : Type) where
  act : L → (e : S.Op) → W → S.Ans e × W
  serve : L → S.Req → L × Prog S S.Resp

namespace Semantics

variable {S : Sig} {L W : Type} (M : Semantics S L W) {α β : Type}

/-- Run by itself at `ℓ` in the world `w`, the program returns `a` and
    leaves the world `w'`. -/
inductive Returns : {α : Type} → L → Prog S α → W → α → W → Prop
  | ret {α : Type} {ℓ : L} {a : α} {w : W} : Returns ℓ (.ret a) w a w
  | op {α : Type} {ℓ : L} {e : S.Op} {k : S.Ans e → Prog S α} {w w' : W} {a : α} :
      Returns ℓ (k (M.act ℓ e w).1) (M.act ℓ e w).2 a w' → Returns ℓ (.op e k) w a w'
  | rpc {α : Type} {ℓ : L} {q : S.Req} {k : S.Resp → Prog S α} {w w₁ w' : W} {r : S.Resp} {a : α} :
      Returns (M.serve ℓ q).1 (M.serve ℓ q).2 w r w₁ → Returns ℓ (k r) w₁ a w' →
      Returns ℓ (.rpc q k) w a w'

variable {M} {ℓ : L} {w w' : W}

@[simp] theorem returns_ret {a b : α} :
    M.Returns ℓ (Prog.ret a) w b w' ↔ b = a ∧ w' = w := by
  constructor
  · intro h
    cases h
    exact ⟨rfl, rfl⟩
  · intro h
    obtain ⟨rfl, rfl⟩ := h
    exact .ret

@[simp] theorem returns_op {e : S.Op} {k : S.Ans e → Prog S α} {a : α} :
    M.Returns ℓ (Prog.op e k) w a w' ↔
      M.Returns ℓ (k (M.act ℓ e w).1) (M.act ℓ e w).2 a w' := by
  constructor
  · intro h
    cases h with
    | op h => exact h
  · exact .op

@[simp] theorem returns_rpc {q : S.Req} {k : S.Resp → Prog S α} {a : α} :
    M.Returns ℓ (Prog.rpc q k) w a w' ↔
      ∃ r w₁, M.Returns (M.serve ℓ q).1 (M.serve ℓ q).2 w r w₁ ∧ M.Returns ℓ (k r) w₁ a w' := by
  constructor
  · intro h
    cases h with
    | rpc h₁ h₂ => exact ⟨_, _, h₁, h₂⟩
  · intro h
    obtain ⟨r, w₁, h₁, h₂⟩ := h
    exact .rpc h₁ h₂

/-- A sequence of two programs. -/
theorem returns_bind {p : Prog S α} {f : α → Prog S β} {b : β} :
    M.Returns ℓ (p >>= f) w b w' ↔
      ∃ a w₁, M.Returns ℓ p w a w₁ ∧ M.Returns ℓ (f a) w₁ b w' := by
  -- induction on the program; only a call has two worlds to pass through
  induction p generalizing w with
  | ret a =>
    constructor
    · intro h
      exact ⟨a, w, .ret, h⟩
    · intro h
      obtain ⟨a', w₁, h₁, h₂⟩ := h
      obtain ⟨rfl, rfl⟩ := returns_ret.mp h₁
      exact h₂
  | op e k ih => simp only [Prog.op_bind, returns_op, ih]
  | rpc q k ih =>
    simp only [Prog.rpc_bind, returns_rpc, ih]
    constructor
    · intro h
      obtain ⟨r, w₁, h₁, a, w₂, h₂, h₃⟩ := h
      exact ⟨a, w₂, ⟨r, w₁, h₁, h₂⟩, h₃⟩
    · intro h
      obtain ⟨a, w₂, ⟨r, w₁, h₁, h₂⟩, h₃⟩ := h
      exact ⟨r, w₁, h₁, a, w₂, h₂, h₃⟩

/-- A run by itself has one outcome. -/
theorem Returns.unique {p : Prog S α} {a b : α} {w₁ w₂ : W}
    (h₁ : M.Returns ℓ p w a w₁) (h₂ : M.Returns ℓ p w b w₂) : a = b ∧ w₁ = w₂ := by
  induction h₁ generalizing w₂ with
  | ret => exact (returns_ret.mp h₂).imp Eq.symm Eq.symm
  | op _ ih => exact ih (returns_op.mp h₂)
  | rpc _ _ ih₁ ih₂ =>
    obtain ⟨r, w₃, h₃, h₄⟩ := returns_rpc.mp h₂
    obtain ⟨rfl, rfl⟩ := ih₁ h₃
    exact ih₂ h₄

/-! ## Total correctness -/

/-- Run by itself at `ℓ` in `w`, the program returns, with `Q`. -/
def Ends (M : Semantics S L W) (ℓ : L) (p : Prog S α) (w : W) (Q : α → W → Prop) : Prop :=
  ∃ a w', M.Returns ℓ p w a w' ∧ Q a w'

theorem ends_ret {a : α} {Q : α → W → Prop} (h : Q a w) : M.Ends ℓ (.ret a) w Q :=
  ⟨a, w, .ret, h⟩

theorem ends_op {e : S.Op} {k : S.Ans e → Prog S α} {Q : α → W → Prop}
    (h : M.Ends ℓ (k (M.act ℓ e w).1) (M.act ℓ e w).2 Q) : M.Ends ℓ (.op e k) w Q := by
  obtain ⟨a, w', hr, hQ⟩ := h
  exact ⟨a, w', .op hr, hQ⟩

/-- A remote call: what the callee ends with, the caller goes on with. -/
theorem ends_rpc {q : S.Req} {k : S.Resp → Prog S α} {R : S.Resp → W → Prop} {Q : α → W → Prop}
    (hcall : M.Ends (M.serve ℓ q).1 (M.serve ℓ q).2 w R)
    (hk : ∀ r w₁, R r w₁ → M.Ends ℓ (k r) w₁ Q) : M.Ends ℓ (.rpc q k) w Q := by
  obtain ⟨r, w₁, hr, hR⟩ := hcall
  obtain ⟨a, w', ha, hQ⟩ := hk r w₁ hR
  exact ⟨a, w', .rpc hr ha, hQ⟩

theorem ends_bind {p : Prog S α} {f : α → Prog S β} {R : α → W → Prop} {Q : β → W → Prop}
    (hp : M.Ends ℓ p w R) (hf : ∀ a w₁, R a w₁ → M.Ends ℓ (f a) w₁ Q) :
    M.Ends ℓ (p >>= f) w Q := by
  obtain ⟨a, w₁, ha, hR⟩ := hp
  obtain ⟨b, w', hb, hQ⟩ := hf a w₁ hR
  exact ⟨b, w', returns_bind.mpr ⟨a, w₁, ha, hb⟩, hQ⟩

theorem Ends.weaken {p : Prog S α} {Q R : α → W → Prop} (h : M.Ends ℓ p w Q)
    (hQ : ∀ a w', Q a w' → R a w') : M.Ends ℓ p w R := by
  obtain ⟨a, w', hr, hq⟩ := h
  exact ⟨a, w', hr, hQ a w' hq⟩

/-! ## Partial correctness -/

/-- Run by itself at `ℓ` in `w`, the program returns only with `Q`. -/
def Meets (M : Semantics S L W) (ℓ : L) (p : Prog S α) (w : W) (Q : α → W → Prop) : Prop :=
  ∀ a w', M.Returns ℓ p w a w' → Q a w'

theorem meets_ret {a : α} {Q : α → W → Prop} (h : Q a w) : M.Meets ℓ (.ret a) w Q := by
  intro b w' hr
  obtain ⟨rfl, rfl⟩ := returns_ret.mp hr
  exact h

theorem meets_op {e : S.Op} {k : S.Ans e → Prog S α} {Q : α → W → Prop}
    (h : M.Meets ℓ (k (M.act ℓ e w).1) (M.act ℓ e w).2 Q) : M.Meets ℓ (.op e k) w Q :=
  fun a w' hr => h a w' (returns_op.mp hr)

/-- An operation, whatever it answers. -/
theorem meets_any {e : S.Op} {k : S.Ans e → Prog S α} {Q : α → W → Prop}
    (h : ∀ a w', M.Meets ℓ (k a) w' Q) : M.Meets ℓ (.op e k) w Q := meets_op (h _ _)

theorem meets_rpc {q : S.Req} {k : S.Resp → Prog S α} {R : S.Resp → W → Prop} {Q : α → W → Prop}
    (hcall : M.Meets (M.serve ℓ q).1 (M.serve ℓ q).2 w R)
    (hk : ∀ r w₁, R r w₁ → M.Meets ℓ (k r) w₁ Q) : M.Meets ℓ (.rpc q k) w Q := by
  intro a w' hr
  obtain ⟨r, w₁, h₁, h₂⟩ := returns_rpc.mp hr
  exact hk r w₁ (hcall r w₁ h₁) a w' h₂

theorem meets_bind {p : Prog S α} {f : α → Prog S β} {R : α → W → Prop} {Q : β → W → Prop}
    (hp : M.Meets ℓ p w R) (hf : ∀ a w₁, R a w₁ → M.Meets ℓ (f a) w₁ Q) :
    M.Meets ℓ (p >>= f) w Q := by
  intro b w' hr
  obtain ⟨a, w₁, h₁, h₂⟩ := returns_bind.mp hr
  exact hf a w₁ (hp a w₁ h₁) b w' h₂

/-- What a program ends with, and what every run of it returns with. -/
theorem Ends.and_meets {p : Prog S α} {Q R : α → W → Prop} (h : M.Ends ℓ p w Q)
    (hR : M.Meets ℓ p w R) : M.Ends ℓ p w fun a w' => Q a w' ∧ R a w' := by
  obtain ⟨a, w', hr, hQ⟩ := h
  exact ⟨a, w', hr, hQ, hR a w' hr⟩

theorem Meets.weaken {p : Prog S α} {Q R : α → W → Prop} (h : M.Meets ℓ p w Q)
    (hQ : ∀ a w', Q a w' → R a w') : M.Meets ℓ p w R :=
  fun a w' hr => hQ a w' (h a w' hr)

/-- A program without remote calls whose operations all keep `I`. -/
theorem meets_of_all {p : Prog S α} {P : S.Op → Prop} {T : α → Prop} {I : W → Prop}
    (h : p.All P (fun _ => False) T) (hI : I w)
    (hop : ∀ e, P e → ∀ v, I v → I (M.act ℓ e v).2) : M.Meets ℓ p w fun a w' => T a ∧ I w' := by
  induction p generalizing w with
  | ret a => exact meets_ret ⟨h, hI⟩
  | op e k ih => exact meets_op (ih _ (h.2 _) (hop e h.1 w hI))
  | rpc q k ih => exact h.1.elim

/-- What is known of every result of a program is known of what it returns. -/
theorem Returns.of_all {p : Prog S α} {P : S.Op → Prop} {R : S.Req → Prop} {T : α → Prop} {a : α}
    (hr : M.Returns ℓ p w a w') (h : p.All P R T) : T a := by
  induction p generalizing w with
  | ret b =>
    obtain ⟨rfl, -⟩ := returns_ret.mp hr
    exact h
  | op e k ih => exact ih _ (returns_op.mp hr) (h.2 _)
  | rpc q k ih =>
    obtain ⟨r, w₁, -, hr⟩ := returns_rpc.mp hr
    exact ih r hr (h.2 r)

/-- What a program returns is a possible result of it. -/
theorem Returns.yields {p : Prog S α} {a : α} (hr : M.Returns ℓ p w a w') : p.Yields a := by
  induction p generalizing w with
  | ret b =>
    obtain ⟨rfl, -⟩ := returns_ret.mp hr
    exact .ret
  | op e k ih => exact .op _ (ih _ (returns_op.mp hr))
  | rpc q k ih =>
    obtain ⟨r, w₁, -, hr⟩ := returns_rpc.mp hr
    exact .rpc r (ih r hr)

/-- **Transfer rule**: a run is also one of another semantics with the same
    operations, if the calls that are made end there as they do here. -/
theorem Returns.transfer {K : Semantics S L W} (hact : M.act = K.act) {p : Prog S α} {a : α}
    {P : S.Op → Prop} {R : S.Req → Prop} {T : α → Prop} (hr : M.Returns ℓ p w a w')
    (hp : p.All P R T) (hcall : ∀ q, R q → ∀ v r v₁,
      M.Returns (M.serve ℓ q).1 (M.serve ℓ q).2 v r v₁ →
      K.Returns (K.serve ℓ q).1 (K.serve ℓ q).2 v r v₁) : K.Returns ℓ p w a w' := by
  induction p generalizing w with
  | ret b =>
    obtain ⟨rfl, rfl⟩ := returns_ret.mp hr
    exact .ret
  | op e k ih =>
    apply returns_op.mpr
    rw [← hact]
    exact ih _ (returns_op.mp hr) (hp.2 _)
  | rpc q k ih =>
    obtain ⟨r, w₁, hq, hk⟩ := returns_rpc.mp hr
    exact .rpc (hcall q hp.1 w r w₁ hq) (ih r hk (hp.2 r))

/-- So what a program ends with in one holds of every run in the other. -/
theorem Ends.meets {K : Semantics S L W} (hact : M.act = K.act) {p : Prog S α}
    {P : S.Op → Prop} {R : S.Req → Prop} {T : α → Prop} {Q : α → W → Prop}
    (h : K.Ends ℓ p w Q) (hp : p.All P R T) (hcall : ∀ q, R q → ∀ v r v₁,
      M.Returns (M.serve ℓ q).1 (M.serve ℓ q).2 v r v₁ →
      K.Returns (K.serve ℓ q).1 (K.serve ℓ q).2 v r v₁) : M.Meets ℓ p w Q := by
  intro a w' hr
  obtain ⟨b, w₁, hb, hQ⟩ := h
  obtain ⟨rfl, rfl⟩ := (hr.transfer hact hp hcall).unique hb
  exact hQ

/-! ## Executing a program -/

variable (M)

/-- Run a program, given what a remote call does. -/
def execWith (call : L → S.Req → W → Option (S.Resp × W)) (ℓ : L) :
    Prog S α → W → Option (α × W)
  | .ret a, w => some (a, w)
  | .op e k, w => execWith call ℓ (k (M.act ℓ e w).1) (M.act ℓ e w).2
  | .rpc q k, w =>
    match call ℓ q w with
    | some (r, w₁) => execWith call ℓ (k r) w₁
    | none => none

/-- Serve a remote call that nests fewer than `n` calls. -/
def execCall : Nat → L → S.Req → W → Option (S.Resp × W)
  | 0, _, _, _ => none
  | n + 1, ℓ, q, w => M.execWith (execCall n) (M.serve ℓ q).1 (M.serve ℓ q).2 w

/-- Run a program whose remote calls nest at most `n` deep. -/
def exec (n : Nat) (ℓ : L) (p : Prog S α) (w : W) : Option (α × W) := M.execWith (M.execCall n) ℓ p w

variable {M}

theorem returns_of_execWith {call : L → S.Req → W → Option (S.Resp × W)}
    (hcall : ∀ ℓ q w r w', call ℓ q w = some (r, w') →
      M.Returns (M.serve ℓ q).1 (M.serve ℓ q).2 w r w')
    {p : Prog S α} {a : α} (h : M.execWith call ℓ p w = some (a, w')) : M.Returns ℓ p w a w' := by
  induction p generalizing w with
  | ret b =>
    simp only [execWith, Option.some.injEq, Prod.mk.injEq] at h
    exact returns_ret.mpr ⟨h.1.symm, h.2.symm⟩
  | op e k ih => exact .op (ih _ h)
  | rpc q k ih =>
    simp only [execWith] at h
    split at h
    · rename_i r w₁ hr
      exact .rpc (hcall _ _ _ _ _ hr) (ih _ h)
    · cases h

/-- What `exec` computes is what the program returns. -/
theorem returns_of_exec {n : Nat} {p : Prog S α} {a : α} (h : M.exec n ℓ p w = some (a, w')) :
    M.Returns ℓ p w a w' := by
  have hcall : ∀ n ℓ q w r w', M.execCall n ℓ q w = some (r, w') →
      M.Returns (M.serve ℓ q).1 (M.serve ℓ q).2 w r w' := by
    intro n
    induction n with
    | zero => intro ℓ q w r w' h; cases h
    | succ n ih => intro ℓ q w r w' h; exact returns_of_execWith ih h
  exact returns_of_execWith (hcall n) h

end Semantics

end Framework
