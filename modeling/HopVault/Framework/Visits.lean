import HopVault.Framework.Semantics

/-! # States a run passes through

    `Returns` tells how a run ends. A state that is only there in between,
    at the caller or deep inside a call, is one that the run visits. To
    show that a bad state is reached, one follows the run to it; to show
    that none is, one shows that every step keeps an invariant. -/

namespace Framework.Semantics

variable {S : Sig} {L W : Type} (M : Semantics S L W) {α β : Type}

/-- Run by itself at `ℓ` in the world `w`, the program comes to the world
    `v`, itself or in a call it makes. -/
inductive Visits : {α : Type} → L → Prog S α → W → W → Prop
  | here {α : Type} {ℓ : L} {p : Prog S α} {w : W} : Visits ℓ p w w
  | op {α : Type} {ℓ : L} {e : S.Op} {k : S.Ans e → Prog S α} {w v : W} :
      Visits ℓ (k (M.act ℓ e w).1) (M.act ℓ e w).2 v → Visits ℓ (.op e k) w v
  | call {α : Type} {ℓ : L} {q : S.Req} {k : S.Resp → Prog S α} {w v : W} :
      Visits (M.serve ℓ q).1 (M.serve ℓ q).2 w v → Visits ℓ (.rpc q k) w v
  | rpc {α : Type} {ℓ : L} {q : S.Req} {k : S.Resp → Prog S α} {w w₁ v : W} {r : S.Resp} :
      M.Returns (M.serve ℓ q).1 (M.serve ℓ q).2 w r w₁ → Visits ℓ (k r) w₁ v →
      Visits ℓ (.rpc q k) w v

variable {M} {ℓ : L} {w v : W}

/-- A sequence of two programs. -/
theorem visits_bind {p : Prog S α} {f : α → Prog S β} :
    M.Visits ℓ (p >>= f) w v ↔
      M.Visits ℓ p w v ∨ ∃ a w₁, M.Returns ℓ p w a w₁ ∧ M.Visits ℓ (f a) w₁ v := by
  -- induction on the program: a world is visited in p, or after p has returned
  induction p generalizing w with
  | ret a =>
    constructor
    · intro h
      exact .inr ⟨a, w, .ret, h⟩
    · intro h
      rcases h with h | ⟨a', w₁, hret, h⟩
      · cases h
        exact .here
      · obtain ⟨rfl, rfl⟩ := returns_ret.mp hret
        exact h
  | op e k ih =>
    rw [Prog.op_bind]
    constructor
    · intro h
      cases h with
      | here => exact .inl .here
      | op h =>
        rcases (ih _).mp h with h | ⟨a, w₁, hret, h⟩
        · exact .inl (.op h)
        · exact .inr ⟨a, w₁, .op hret, h⟩
    · intro h
      rcases h with h | ⟨a, w₁, hret, h⟩
      · cases h with
        | here => exact .here
        | op h => exact .op ((ih _).mpr (.inl h))
      · exact .op ((ih _).mpr (.inr ⟨a, w₁, returns_op.mp hret, h⟩))
  | rpc q k ih =>
    rw [Prog.rpc_bind]
    constructor
    · intro h
      cases h with
      | here => exact .inl .here
      | call h => exact .inl (.call h)
      | rpc hcall h =>
        rcases (ih _).mp h with h | ⟨a, w₁, hret, h⟩
        · exact .inl (.rpc hcall h)
        · exact .inr ⟨a, w₁, .rpc hcall hret, h⟩
    · intro h
      rcases h with h | ⟨a, w₁, hret, h⟩
      · cases h with
        | here => exact .here
        | call h => exact .call h
        | rpc hcall h => exact .rpc hcall ((ih _).mpr (.inl h))
      · obtain ⟨r, w₂, hcall, hret⟩ := returns_rpc.mp hret
        exact .rpc hcall ((ih _).mpr (.inr ⟨a, w₁, hret, h⟩))

/-! ## Reaching a state -/

/-- Run by itself at `ℓ` in `w`, the program comes to a world with `Q`. -/
def Comes (M : Semantics S L W) (ℓ : L) (p : Prog S α) (w : W) (Q : W → Prop) : Prop :=
  ∃ v, M.Visits ℓ p w v ∧ Q v

theorem comes_here {p : Prog S α} {Q : W → Prop} (h : Q w) : M.Comes ℓ p w Q := ⟨w, .here, h⟩

theorem comes_op {e : S.Op} {k : S.Ans e → Prog S α} {Q : W → Prop}
    (h : M.Comes ℓ (k (M.act ℓ e w).1) (M.act ℓ e w).2 Q) : M.Comes ℓ (.op e k) w Q := by
  obtain ⟨v, hv, hQ⟩ := h
  exact ⟨v, .op hv, hQ⟩

/-- Inside a call. -/
theorem comes_call {q : S.Req} {k : S.Resp → Prog S α} {Q : W → Prop}
    (h : M.Comes (M.serve ℓ q).1 (M.serve ℓ q).2 w Q) : M.Comes ℓ (.rpc q k) w Q := by
  obtain ⟨v, hv, hQ⟩ := h
  exact ⟨v, .call hv, hQ⟩

/-- In the first of two programs, -/
theorem comes_left {p : Prog S α} {f : α → Prog S β} {Q : W → Prop} (h : M.Comes ℓ p w Q) :
    M.Comes ℓ (p >>= f) w Q := by
  obtain ⟨v, hv, hQ⟩ := h
  exact ⟨v, visits_bind.mpr (.inl hv), hQ⟩

/-- or in the second. -/
theorem comes_bind {p : Prog S α} {f : α → Prog S β} {R : α → W → Prop} {Q : W → Prop}
    (hp : M.Ends ℓ p w R) (hf : ∀ a w₁, R a w₁ → M.Comes ℓ (f a) w₁ Q) :
    M.Comes ℓ (p >>= f) w Q := by
  obtain ⟨a, w₁, hret, hR⟩ := hp
  obtain ⟨v, hv, hQ⟩ := hf a w₁ hR
  exact ⟨v, visits_bind.mpr (.inr ⟨a, w₁, hret, hv⟩), hQ⟩

/-! ## Staying in an invariant -/

/-- Run by itself at `ℓ` in `w`, the program comes to worlds with `I` only,
    and returns only with `Q`. -/
def Stays (M : Semantics S L W) (ℓ : L) (p : Prog S α) (w : W) (I : W → Prop)
    (Q : α → W → Prop) : Prop :=
  (∀ v, M.Visits ℓ p w v → I v) ∧ M.Meets ℓ p w Q

variable {I : W → Prop}

theorem stays_ret {a : α} {Q : α → W → Prop} (hI : I w) (hQ : Q a w) :
    M.Stays ℓ (.ret a) w I Q := by
  refine ⟨?_, meets_ret hQ⟩
  intro v hv
  cases hv
  exact hI

theorem stays_op {e : S.Op} {k : S.Ans e → Prog S α} {Q : α → W → Prop} (hI : I w)
    (h : M.Stays ℓ (k (M.act ℓ e w).1) (M.act ℓ e w).2 I Q) : M.Stays ℓ (.op e k) w I Q := by
  refine ⟨?_, meets_op h.2⟩
  intro v hv
  cases hv with
  | here => exact hI
  | op hv => exact h.1 v hv

/-- A remote call: the callee stays in the invariant, and the caller with
    every answer. -/
theorem stays_rpc {q : S.Req} {k : S.Resp → Prog S α} {R : S.Resp → W → Prop} {Q : α → W → Prop}
    (hI : I w) (hcall : M.Stays (M.serve ℓ q).1 (M.serve ℓ q).2 w I R)
    (hk : ∀ r w₁, R r w₁ → M.Stays ℓ (k r) w₁ I Q) : M.Stays ℓ (.rpc q k) w I Q := by
  refine ⟨?_, meets_rpc hcall.2 fun r w₁ hr => (hk r w₁ hr).2⟩
  intro v hv
  cases hv with
  | here => exact hI
  | call hv => exact hcall.1 v hv
  | rpc hret hv => exact (hk _ _ (hcall.2 _ _ hret)).1 v hv

theorem stays_bind {p : Prog S α} {f : α → Prog S β} {R : α → W → Prop} {Q : β → W → Prop}
    (hp : M.Stays ℓ p w I R) (hf : ∀ a w₁, R a w₁ → M.Stays ℓ (f a) w₁ I Q) :
    M.Stays ℓ (p >>= f) w I Q := by
  refine ⟨?_, meets_bind hp.2 fun a w₁ ha => (hf a w₁ ha).2⟩
  intro v hv
  rcases visits_bind.mp hv with hv | ⟨a, w₁, hret, hv⟩
  · exact hp.1 v hv
  · exact (hf a w₁ (hp.2 a w₁ hret)).1 v hv

theorem Stays.weaken {p : Prog S α} {Q R : α → W → Prop} (h : M.Stays ℓ p w I Q)
    (hQ : ∀ a w', Q a w' → R a w') : M.Stays ℓ p w I R := ⟨h.1, h.2.weaken hQ⟩

/-- A program without remote calls whose operations all keep the invariant. -/
theorem stays_of_all {p : Prog S α} {P : S.Op → Prop} {T : α → Prop}
    (h : p.All P (fun _ => False) T) (hI : I w)
    (hop : ∀ e, P e → ∀ v, I v → I (M.act ℓ e v).2) : M.Stays ℓ p w I fun a w' => T a ∧ I w' := by
  induction p generalizing w with
  | ret a => exact stays_ret hI ⟨h, hI⟩
  | op e k ih => exact stays_op hI (ih _ (h.2 _) (hop e h.1 w hI))
  | rpc q k ih => exact h.1.elim

end Framework.Semantics
