import HopVault.Framework.Semantics

/-! # Paths of a program

    What a program does from its start to its end: its operations and its
    remote calls in order, each with the answer it gets. A path says
    nothing about the state of the system, so what is shown for every path
    of a program holds however it is interleaved with others, and a
    scenario is a condition on the answers. -/

namespace Framework

/-- One interaction of a program, with what it is answered. -/
inductive Interaction (S : Sig) where
  | op (e : S.Op) (x : S.Ans e)
  | rpc (q : S.Req) (r : S.Resp)

namespace Prog

variable {S : Sig} {α β : Type}

/-- With these interactions the program returns `a`. -/
inductive Path : Prog S α → List (Interaction S) → α → Prop
  | ret {a : α} : Path (.ret a) [] a
  | op {e : S.Op} {k : S.Ans e → Prog S α} {x : S.Ans e} {τ : List (Interaction S)} {a : α} :
      Path (k x) τ a → Path (.op e k) (.op e x :: τ) a
  | rpc {q : S.Req} {k : S.Resp → Prog S α} {r : S.Resp} {τ : List (Interaction S)} {a : α} :
      Path (k r) τ a → Path (.rpc q k) (.rpc q r :: τ) a

variable {a b : α} {τ : List (Interaction S)}

@[simp] theorem path_ret : Path (ret a : Prog S α) τ b ↔ τ = [] ∧ b = a := by
  constructor
  · intro h
    cases h
    exact ⟨rfl, rfl⟩
  · intro h
    obtain ⟨rfl, rfl⟩ := h
    exact .ret

@[simp] theorem path_op {e : S.Op} {k : S.Ans e → Prog S α} :
    Path (op e k) τ b ↔ ∃ x τ', τ = .op e x :: τ' ∧ Path (k x) τ' b := by
  constructor
  · intro h
    cases h with
    | op h => exact ⟨_, _, rfl, h⟩
  · intro h
    obtain ⟨x, τ', rfl, h⟩ := h
    exact .op h

@[simp] theorem path_rpc {q : S.Req} {k : S.Resp → Prog S α} :
    Path (rpc q k) τ b ↔ ∃ r τ', τ = .rpc q r :: τ' ∧ Path (k r) τ' b := by
  constructor
  · intro h
    cases h with
    | rpc h => exact ⟨_, _, rfl, h⟩
  · intro h
    obtain ⟨r, τ', rfl, h⟩ := h
    exact .rpc h

/-- A sequence of two programs. -/
theorem path_bind {p : Prog S α} {f : α → Prog S β} {c : β} :
    Path (p >>= f) τ c ↔ ∃ a τ₁ τ₂, τ = τ₁ ++ τ₂ ∧ Path p τ₁ a ∧ Path (f a) τ₂ c := by
  -- induction on the program; a path splits where p returns
  induction p generalizing τ with
  | ret a =>
    constructor
    · intro h
      exact ⟨a, [], τ, rfl, .ret, h⟩
    · intro h
      obtain ⟨a', τ₁, τ₂, rfl, hp, hf⟩ := h
      obtain ⟨rfl, rfl⟩ := path_ret.mp hp
      exact hf
  | op e k ih =>
    rw [op_bind, path_op]
    constructor
    · intro h
      obtain ⟨x, τ', rfl, h⟩ := h
      obtain ⟨a, τ₁, τ₂, rfl, hp, hf⟩ := (ih x).mp h
      exact ⟨a, .op e x :: τ₁, τ₂, rfl, .op hp, hf⟩
    · intro h
      obtain ⟨a, τ₁, τ₂, rfl, hp, hf⟩ := h
      obtain ⟨x, τ', rfl, hk⟩ := path_op.mp hp
      exact ⟨x, τ' ++ τ₂, rfl, (ih x).mpr ⟨a, τ', τ₂, rfl, hk, hf⟩⟩
  | rpc q k ih =>
    rw [rpc_bind, path_rpc]
    constructor
    · intro h
      obtain ⟨r, τ', rfl, h⟩ := h
      obtain ⟨a, τ₁, τ₂, rfl, hp, hf⟩ := (ih r).mp h
      exact ⟨a, .rpc q r :: τ₁, τ₂, rfl, .rpc hp, hf⟩
    · intro h
      obtain ⟨a, τ₁, τ₂, rfl, hp, hf⟩ := h
      obtain ⟨r, τ', rfl, hk⟩ := path_rpc.mp hp
      exact ⟨r, τ' ++ τ₂, rfl, (ih r).mpr ⟨a, τ', τ₂, rfl, hk, hf⟩⟩

/-- The result of a path is a possible one. -/
theorem Path.yields {p : Prog S α} (h : Path p τ a) : Yields p a := by
  induction h with
  | ret => exact .ret
  | op _ ih => exact .op _ ih
  | rpc _ ih => exact .rpc _ ih

/-- A possible result has a path. -/
theorem Yields.path {p : Prog S α} (h : Yields p a) : ∃ τ, Path p τ a := by
  induction h with
  | ret => exact ⟨[], .ret⟩
  | op x _ ih =>
    obtain ⟨τ, hτ⟩ := ih
    exact ⟨_, .op hτ⟩
  | rpc r _ ih =>
    obtain ⟨τ, hτ⟩ := ih
    exact ⟨_, .rpc hτ⟩

/-- An interaction that `P` allows as an operation, and `R` as a call. -/
def Interaction.Within (P : S.Op → Prop) (R : S.Req → Prop) : Interaction S → Prop
  | .op e _ => P e
  | .rpc q _ => R q

/-- **Footprint rule**: a path stays within the footprint of its program. -/
theorem Path.of_all {P : S.Op → Prop} {R : S.Req → Prop} {T : α → Prop} {p : Prog S α}
    (h : Path p τ a) (hp : p.All P R T) : T a ∧ ∀ x ∈ τ, Interaction.Within P R x := by
  induction h with
  | ret => exact ⟨hp, by simp⟩
  | op _ ih =>
    obtain ⟨ha, hτ⟩ := ih (hp.2 _)
    exact ⟨ha, List.forall_mem_cons.mpr ⟨hp.1, hτ⟩⟩
  | rpc _ ih =>
    obtain ⟨ha, hτ⟩ := ih (hp.2 _)
    exact ⟨ha, List.forall_mem_cons.mpr ⟨hp.1, hτ⟩⟩

end Prog

/-- A run is a path, whose operations are answered by the semantics. -/
theorem Semantics.Returns.path {S : Sig} {L W α : Type} {M : Semantics S L W} {ℓ : L} {w w' : W}
    {p : Prog S α} {a : α} (h : M.Returns ℓ p w a w') : ∃ τ, p.Path τ a ∧
      ∀ e x, .op e x ∈ τ → ∃ v, (M.act ℓ e v).1 = x := by
  induction p generalizing w with
  | ret b =>
    obtain ⟨rfl, -⟩ := Semantics.returns_ret.mp h
    exact ⟨[], .ret, by simp⟩
  | op e k ih =>
    obtain ⟨τ, hτ, hans⟩ := ih _ (Semantics.returns_op.mp h)
    refine ⟨_, .op hτ, ?_⟩
    -- the first interaction has the world's answer, the later ones by induction
    intro e' x hx
    rcases List.mem_cons.mp hx with heq | hx
    · cases heq
      exact ⟨w, rfl⟩
    · exact hans e' x hx
  | rpc q k ih =>
    obtain ⟨r, w₁, -, h⟩ := Semantics.returns_rpc.mp h
    obtain ⟨τ, hτ, hans⟩ := ih r h
    refine ⟨_, .rpc hτ, ?_⟩
    intro e' x hx
    rcases List.mem_cons.mp hx with heq | hx
    · cases heq
    · exact hans e' x hx

end Framework
