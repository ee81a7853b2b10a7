import HopVault.Framework.Path

/-! # Runs with their traces

    A run of a program by itself, with the interactions of the program in
    order and their answers. What the programs do that serve its calls is
    not part of the trace. A run has one trace, which is a path of the
    program, so that what is known of every path is known of it; the rules
    for total correctness say of a trace what those of `Ends` say of the
    result and the world. -/

namespace Framework.Semantics

variable {S : Sig} {L W : Type} {α β : Type}

/-- Run by itself, the program does this and returns. -/
inductive Traces (M : Semantics S L W) :
    {α : Type} → L → Prog S α → W → List (Interaction S) → α → W → Prop
  | ret {α : Type} {ℓ : L} {a : α} {w : W} : Traces M ℓ (.ret a) w [] a w
  | op {α : Type} {ℓ : L} {e : S.Op} {k : S.Ans e → Prog S α} {w w' : W}
      {τ : List (Interaction S)} {a : α} :
      Traces M ℓ (k (M.act ℓ e w).1) (M.act ℓ e w).2 τ a w' →
      Traces M ℓ (.op e k) w (.op e (M.act ℓ e w).1 :: τ) a w'
  | rpc {α : Type} {ℓ : L} {q : S.Req} {k : S.Resp → Prog S α} {w w₁ w' : W} {r : S.Resp}
      {τ : List (Interaction S)} {a : α} :
      M.Returns (M.serve ℓ q).1 (M.serve ℓ q).2 w r w₁ → Traces M ℓ (k r) w₁ τ a w' →
      Traces M ℓ (.rpc q k) w (.rpc q r :: τ) a w'

variable {M : Semantics S L W} {ℓ : L} {w w' : W} {τ : List (Interaction S)} {a : α}

namespace Traces

theorem path {p : Prog S α} (h : M.Traces ℓ p w τ a w') : p.Path τ a := by
  induction h with
  | ret => exact .ret
  | op _ ih => exact .op ih
  | rpc _ _ ih => exact .rpc ih

/-- One program after another. -/
theorem bind {p : Prog S α} {f : α → Prog S β} {w₁ : W} {τ₂ : List (Interaction S)} {b : β}
    (hp : M.Traces ℓ p w τ a w₁) (hf : M.Traces ℓ (f a) w₁ τ₂ b w') :
    M.Traces ℓ (p >>= f) w (τ ++ τ₂) b w' := by
  induction hp with
  | ret => exact hf
  | op _ ih => exact .op (ih hf)
  | rpc hcall _ ih => exact .rpc hcall (ih hf)

end Traces

/-- Every run has a trace. -/
theorem Returns.traces {p : Prog S α} (h : M.Returns ℓ p w a w') : ∃ τ, M.Traces ℓ p w τ a w' := by
  induction p generalizing w with
  | ret b =>
    obtain ⟨rfl, rfl⟩ := returns_ret.mp h
    exact ⟨[], .ret⟩
  | op e k ih =>
    obtain ⟨τ, hτ⟩ := ih _ (returns_op.mp h)
    exact ⟨_, .op hτ⟩
  | rpc q k ih =>
    obtain ⟨r, w₁, hcall, hk⟩ := returns_rpc.mp h
    obtain ⟨τ, hτ⟩ := ih r hk
    exact ⟨_, .rpc hcall hτ⟩

/-! ## Total correctness -/

/-- Run by itself at `ℓ` in `w`, the program returns, with `Q` of what it
    has done. -/
def Does (M : Semantics S L W) (ℓ : L) (p : Prog S α) (w : W)
    (Q : List (Interaction S) → α → W → Prop) : Prop :=
  ∃ τ a w', M.Traces ℓ p w τ a w' ∧ Q τ a w'

theorem does_ret {Q : List (Interaction S) → α → W → Prop} (h : Q [] a w) :
    M.Does ℓ (.ret a) w Q :=
  ⟨[], a, w, .ret, h⟩

theorem does_op {e : S.Op} {k : S.Ans e → Prog S α} {Q : List (Interaction S) → α → W → Prop}
    (h : M.Does ℓ (k (M.act ℓ e w).1) (M.act ℓ e w).2
      fun τ a w' => Q (.op e (M.act ℓ e w).1 :: τ) a w') : M.Does ℓ (.op e k) w Q := by
  obtain ⟨τ, a, w', hτ, hQ⟩ := h
  exact ⟨_, a, w', .op hτ, hQ⟩

theorem does_bind {p : Prog S α} {f : α → Prog S β} {R : List (Interaction S) → α → W → Prop}
    {Q : List (Interaction S) → β → W → Prop} (hp : M.Does ℓ p w R)
    (hf : ∀ τ₁ a w₁, R τ₁ a w₁ → M.Does ℓ (f a) w₁ fun τ₂ b w' => Q (τ₁ ++ τ₂) b w') :
    M.Does ℓ (p >>= f) w Q := by
  obtain ⟨τ₁, a, w₁, h₁, hR⟩ := hp
  obtain ⟨τ₂, b, w', h₂, hQ⟩ := hf τ₁ a w₁ hR
  exact ⟨_, b, w', h₁.bind h₂, hQ⟩

theorem Does.weaken {p : Prog S α} {Q R : List (Interaction S) → α → W → Prop}
    (h : M.Does ℓ p w Q) (hQ : ∀ τ a w', Q τ a w' → R τ a w') : M.Does ℓ p w R := by
  obtain ⟨τ, a, w', hτ, hq⟩ := h
  exact ⟨τ, a, w', hτ, hQ τ a w' hq⟩

/-- **Footprint rule**: a program that ends with `Q` does so within its
    footprint. -/
theorem Ends.does {p : Prog S α} {P : S.Op → Prop} {R : S.Req → Prop} {T : α → Prop}
    {Q : α → W → Prop} (h : M.Ends ℓ p w Q) (hp : p.All P R T) :
    M.Does ℓ p w fun τ a w' => Q a w' ∧ ∀ x ∈ τ, Prog.Interaction.Within P R x := by
  obtain ⟨a, w', hr, hQ⟩ := h
  obtain ⟨τ, hτ⟩ := hr.traces
  exact ⟨τ, a, w', hτ, hQ, (hτ.path.of_all hp).2⟩

end Framework.Semantics
