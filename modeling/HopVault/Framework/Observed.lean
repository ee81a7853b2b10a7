import HopVault.Framework.Path
import Mathlib.Data.List.Forall2

/-! # What the parties of a run observe

    `Observed` is the run of a program with its trace and, for every call
    that is served meanwhile, where it was served, the trace of serving it
    and the answer.

    Two runs are compared step by step. A `Comparison` says which worlds
    are twins, which interactions of a party look alike to it, and which
    served calls do. `Lockstep` says that two programs run from twin worlds
    look alike throughout; there is one rule for each form of a program. -/

namespace Framework

/-- A call that was served. -/
structure ServedCall (S : Sig) (L : Type) where
  loc : L
  trace : List (Interaction S)
  answer : S.Resp

namespace Semantics

variable {S : Sig} {L W : Type} (M : Semantics S L W) {α β : Type}

/-- Run by itself at `ℓ` in the world `w`, the program returns `a` with this
    trace, these calls having been served, and leaves the world `w'`. -/
inductive Observed : {α : Type} → L → Prog S α → W → List (Interaction S) → List (ServedCall S L) →
    α → W → Prop
  | ret {α : Type} {ℓ : L} {a : α} {w : W} : Observed ℓ (.ret a) w [] [] a w
  | op {α : Type} {ℓ : L} {e : S.Op} {k : S.Ans e → Prog S α} {w w' : W}
      {τ : List (Interaction S)} {xs : List (ServedCall S L)} {a : α} :
      Observed ℓ (k (M.act ℓ e w).1) (M.act ℓ e w).2 τ xs a w' →
      Observed ℓ (.op e k) w (.op e (M.act ℓ e w).1 :: τ) xs a w'
  | rpc {α : Type} {ℓ : L} {q : S.Req} {k : S.Resp → Prog S α} {w w₁ w' : W} {r : S.Resp}
      {τ₁ τ : List (Interaction S)} {xs₁ xs : List (ServedCall S L)} {a : α} :
      Observed (M.serve ℓ q).1 (M.serve ℓ q).2 w τ₁ xs₁ r w₁ → Observed ℓ (k r) w₁ τ xs a w' →
      Observed ℓ (.rpc q k) w (.rpc q r :: τ) (xs₁ ++ ⟨(M.serve ℓ q).1, τ₁, r⟩ :: xs) a w'

variable {M} {ℓ : L} {w w' : W} {τ : List (Interaction S)} {xs : List (ServedCall S L)}

theorem observed_ret {a b : α} :
    M.Observed ℓ (.ret a) w τ xs b w' ↔ τ = [] ∧ xs = [] ∧ b = a ∧ w' = w := by
  constructor
  · intro h
    cases h
    exact ⟨rfl, rfl, rfl, rfl⟩
  · rintro ⟨rfl, rfl, rfl, rfl⟩
    exact .ret

/-- A sequence of two programs. -/
theorem observed_bind {p : Prog S α} {f : α → Prog S β} {b : β}
    (h : M.Observed ℓ (p >>= f) w τ xs b w') :
    ∃ a w₁ τ₁ τ₂ xs₁ xs₂, τ = τ₁ ++ τ₂ ∧ xs = xs₁ ++ xs₂ ∧ M.Observed ℓ p w τ₁ xs₁ a w₁ ∧
      M.Observed ℓ (f a) w₁ τ₂ xs₂ b w' := by
  -- induction on the program: what it records splits where it returns to f
  induction p generalizing w τ xs with
  | ret a => exact ⟨a, w, [], τ, [], xs, rfl, rfl, .ret, h⟩
  | op e k ih =>
    rw [Prog.op_bind] at h
    cases h with
    | op h =>
      obtain ⟨a, w₁, τ₁, τ₂, xs₁, xs₂, rfl, rfl, hp, hf⟩ := ih _ h
      exact ⟨a, w₁, _, τ₂, xs₁, xs₂, rfl, rfl, .op hp, hf⟩
  | rpc q k ih =>
    rw [Prog.rpc_bind] at h
    cases h with
    | rpc hcall h =>
      obtain ⟨a, w₁, τ₁, τ₂, xs₁, xs₂, rfl, rfl, hp, hf⟩ := ih _ h
      refine ⟨a, w₁, _, τ₂, _, xs₂, rfl, ?_, .rpc hcall hp, hf⟩
      rw [List.append_assoc, List.cons_append]

/-- What is observed is a run, -/
theorem Observed.returns {p : Prog S α} {a : α} (h : M.Observed ℓ p w τ xs a w') :
    M.Returns ℓ p w a w' := by
  induction h with
  | ret => exact .ret
  | op _ ih => exact .op ih
  | rpc _ _ ih₁ ih₂ => exact .rpc ih₁ ih₂

/-- with its path, -/
theorem Observed.path {p : Prog S α} {a : α} (h : M.Observed ℓ p w τ xs a w') : p.Path τ a := by
  induction h with
  | ret => exact .ret
  | op _ ih => exact .op ih
  | rpc _ _ _ ih => exact .rpc ih

/-- and in a program without calls no other party takes part. -/
theorem Observed.exchanges_nil {p : Prog S α} {a : α} (h : M.Observed ℓ p w τ xs a w')
    {P : S.Op → Prop} {T : α → Prop} (hp : p.All P (fun _ => False) T) : xs = [] := by
  induction h with
  | ret => rfl
  | op _ ih => exact ih (hp.2 _)
  | rpc _ _ _ _ => exact hp.1.elim

/-! ## Observing a run -/

/-- The trace of a run, the calls served meanwhile, the result and the world
    that is left. -/
abbrev Recorded (S : Sig) (L W α : Type) : Type :=
  List (Interaction S) × List (ServedCall S L) × α × W

variable (M)

/-- Run a program and observe it, given how a call is served. -/
def observeWith (call : L → S.Req → W → Option (Recorded S L W S.Resp)) (ℓ : L) :
    Prog S α → W → Option (Recorded S L W α)
  | .ret a, w => some ([], [], a, w)
  | .op e k, w =>
    (observeWith call ℓ (k (M.act ℓ e w).1) (M.act ℓ e w).2).map fun o =>
      (.op e (M.act ℓ e w).1 :: o.1, o.2)
  | .rpc q k, w =>
    match call ℓ q w with
    | none => none
    | some (τ₁, xs₁, r, w₁) =>
      (observeWith call ℓ (k r) w₁).map fun o =>
        (.rpc q r :: o.1, xs₁ ++ ⟨(M.serve ℓ q).1, τ₁, r⟩ :: o.2.1, o.2.2)

/-- Observe a call that nests fewer than `n` calls. -/
def observeCall : Nat → L → S.Req → W → Option (Recorded S L W S.Resp)
  | 0, _, _, _ => none
  | n + 1, ℓ, q, w => M.observeWith (observeCall n) (M.serve ℓ q).1 (M.serve ℓ q).2 w

/-- Observe a program whose calls nest at most `n` deep. -/
def observe (n : Nat) (ℓ : L) (p : Prog S α) (w : W) : Option (Recorded S L W α) :=
  M.observeWith (M.observeCall n) ℓ p w

variable {M}

theorem observed_of_observeWith {call : L → S.Req → W → Option (Recorded S L W S.Resp)}
    (hcall : ∀ ℓ q w τ xs r w', call ℓ q w = some (τ, xs, r, w') →
      M.Observed (M.serve ℓ q).1 (M.serve ℓ q).2 w τ xs r w')
    {p : Prog S α} {a : α} (h : M.observeWith call ℓ p w = some (τ, xs, a, w')) :
    M.Observed ℓ p w τ xs a w' := by
  -- induction on the program; the answer of each call is recorded by hcall
  induction p generalizing w τ xs with
  | ret b =>
    cases h
    exact .ret
  | op e k ih =>
    obtain ⟨⟨σ, ys, b, v⟩, ho, heq⟩ := Option.map_eq_some_iff.mp h
    cases heq
    exact .op (ih _ ho)
  | rpc q k ih =>
    simp only [observeWith] at h
    split at h
    · cases h
    · rename_i τ₁ xs₁ r w₁ hr
      obtain ⟨⟨σ, ys, b, v⟩, ho, heq⟩ := Option.map_eq_some_iff.mp h
      cases heq
      exact .rpc (hcall _ _ _ _ _ _ _ hr) (ih _ ho)

/-- What `observe` computes is observed. -/
theorem observed_of_observe {n : Nat} {p : Prog S α} {a : α}
    (h : M.observe n ℓ p w = some (τ, xs, a, w')) : M.Observed ℓ p w τ xs a w' := by
  have hcall : ∀ n ℓ q w τ xs r w', M.observeCall n ℓ q w = some (τ, xs, r, w') →
      M.Observed (M.serve ℓ q).1 (M.serve ℓ q).2 w τ xs r w' := by
    intro n
    induction n with
    | zero =>
      intro ℓ q w τ xs r w' h
      cases h
    | succ n ih =>
      intro ℓ q w τ xs r w' h
      exact observed_of_observeWith ih h
  exact observed_of_observeWith (hcall n) h

end Semantics

/-! ## Two runs -/

/-- How two runs are compared. -/
structure Comparison (S : Sig) (L W : Type) where
  /-- The worlds are twins. -/
  worlds : W → W → Prop
  /-- The two interactions look alike to the party. -/
  alike : L → Interaction S → Interaction S → Prop
  /-- The two calls look alike to who serves them. -/
  exchanged : ServedCall S L → ServedCall S L → Prop
  /-- What is assumed of the calls that are served. -/
  given : ServedCall S L → ServedCall S L → Prop

namespace Comparison

variable {S : Sig} {L W : Type} (C : Comparison S L W) (M : Semantics S L W) {α β : Type}

/-- Run at `ℓ` from twin worlds, the two programs look alike, and return
    results with `Q` in twin worlds. -/
def Lockstep (ℓ : L) (p₁ p₂ : Prog S α) (Q : α → α → Prop) : Prop :=
  ∀ w₁ w₂, C.worlds w₁ w₂ → ∀ τ₁ xs₁ a₁ v₁ τ₂ xs₂ a₂ v₂,
    M.Observed ℓ p₁ w₁ τ₁ xs₁ a₁ v₁ → M.Observed ℓ p₂ w₂ τ₂ xs₂ a₂ v₂ →
    (∀ x₁ ∈ xs₁, ∀ x₂ ∈ xs₂, C.given x₁ x₂) →
    List.Forall₂ (C.alike ℓ) τ₁ τ₂ ∧ List.Forall₂ C.exchanged xs₁ xs₂ ∧ Q a₁ a₂ ∧ C.worlds v₁ v₂

/-- Served from twin worlds, the two calls look alike, and are answered with
    `R`. -/
def Served (s₁ s₂ : L × Prog S S.Resp) (R : S.Resp → S.Resp → Prop) : Prop :=
  ∀ w₁ w₂, C.worlds w₁ w₂ → ∀ τ₁ xs₁ r₁ v₁ τ₂ xs₂ r₂ v₂,
    M.Observed s₁.1 s₁.2 w₁ τ₁ xs₁ r₁ v₁ → M.Observed s₂.1 s₂.2 w₂ τ₂ xs₂ r₂ v₂ →
    (∀ x₁ ∈ xs₁, ∀ x₂ ∈ xs₂, C.given x₁ x₂) → C.given ⟨s₁.1, τ₁, r₁⟩ ⟨s₂.1, τ₂, r₂⟩ →
    List.Forall₂ C.exchanged xs₁ xs₂ ∧ C.exchanged ⟨s₁.1, τ₁, r₁⟩ ⟨s₂.1, τ₂, r₂⟩ ∧ R r₁ r₂ ∧
      C.worlds v₁ v₂

variable {C M} {ℓ : L} {Q : α → α → Prop}

theorem lockstep_ret {a₁ a₂ : α} (h : Q a₁ a₂) : C.Lockstep M ℓ (.ret a₁) (.ret a₂) Q := by
  intro w₁ w₂ hw τ₁ xs₁ b₁ v₁ τ₂ xs₂ b₂ v₂ h₁ h₂ _
  obtain ⟨rfl, rfl, rfl, rfl⟩ := Semantics.observed_ret.mp h₁
  obtain ⟨rfl, rfl, rfl, rfl⟩ := Semantics.observed_ret.mp h₂
  exact ⟨.nil, .nil, h, hw⟩

/-- Programs that only return. -/
theorem lockstep_of_all {p₁ p₂ : Prog S α} {T : α → Prop}
    (h₁ : p₁.All (fun _ => False) (fun _ => False) T)
    (h₂ : p₂.All (fun _ => False) (fun _ => False) T) (hQ : ∀ a₁ a₂, T a₁ → T a₂ → Q a₁ a₂) :
    C.Lockstep M ℓ p₁ p₂ Q := by
  cases p₁ with
  | ret a₁ =>
    cases p₂ with
    | ret a₂ => exact lockstep_ret (hQ a₁ a₂ h₁ h₂)
    | op e k => exact h₂.1.elim
    | rpc q k => exact h₂.1.elim
  | op e k => exact h₁.1.elim
  | rpc q k => exact h₁.1.elim

/-- An operation on each side; `P` is what is known of the answers. -/
theorem lockstep_op {e₁ e₂ : S.Op} {k₁ : S.Ans e₁ → Prog S α} {k₂ : S.Ans e₂ → Prog S α}
    {P : S.Ans e₁ → S.Ans e₂ → Prop}
    (hstep : ∀ w₁ w₂, C.worlds w₁ w₂ → P (M.act ℓ e₁ w₁).1 (M.act ℓ e₂ w₂).1 ∧
      C.worlds (M.act ℓ e₁ w₁).2 (M.act ℓ e₂ w₂).2)
    (hk : ∀ a₁ a₂, P a₁ a₂ → C.alike ℓ (.op e₁ a₁) (.op e₂ a₂) ∧
      C.Lockstep M ℓ (k₁ a₁) (k₂ a₂) Q) : C.Lockstep M ℓ (.op e₁ k₁) (.op e₂ k₂) Q := by
  intro w₁ w₂ hw τ₁ xs₁ a₁ v₁ τ₂ xs₂ a₂ v₂ h₁ h₂ hgiven
  cases h₁ with
  | op h₁ =>
    cases h₂ with
    | op h₂ =>
      obtain ⟨hP, hv⟩ := hstep w₁ w₂ hw
      obtain ⟨halike, hrest⟩ := hk _ _ hP
      obtain ⟨hτ, hxs, hQ, hv'⟩ := hrest _ _ hv _ _ _ _ _ _ _ _ h₁ h₂ hgiven
      exact ⟨.cons halike hτ, hxs, hQ, hv'⟩

/-- A call on each side. -/
theorem lockstep_rpc {q₁ q₂ : S.Req} {k₁ k₂ : S.Resp → Prog S α} {R : S.Resp → S.Resp → Prop}
    (hcall : C.Served M (M.serve ℓ q₁) (M.serve ℓ q₂) R)
    (hk : ∀ r₁ r₂, R r₁ r₂ → C.alike ℓ (.rpc q₁ r₁) (.rpc q₂ r₂) ∧
      C.Lockstep M ℓ (k₁ r₁) (k₂ r₂) Q) : C.Lockstep M ℓ (.rpc q₁ k₁) (.rpc q₂ k₂) Q := by
  intro w₁ w₂ hw τ₁ xs₁ a₁ v₁ τ₂ xs₂ a₂ v₂ h₁ h₂ hgiven
  cases h₁ with
  | rpc hc₁ h₁ =>
    cases h₂ with
    | rpc hc₂ h₂ =>
      -- the callee's exchanges come first in the record, then the call itself, then the rest
      have hin : ∀ x₁ ∈ _, ∀ x₂ ∈ _, C.given x₁ x₂ := fun x₁ hx₁ x₂ hx₂ =>
        hgiven x₁ (List.mem_append_left _ hx₁) x₂ (List.mem_append_left _ hx₂)
      have hlater : ∀ x₁ ∈ _, ∀ x₂ ∈ _, C.given x₁ x₂ := fun x₁ hx₁ x₂ hx₂ =>
        hgiven x₁ (List.mem_append_right _ (List.mem_cons_of_mem _ hx₁)) x₂
          (List.mem_append_right _ (List.mem_cons_of_mem _ hx₂))
      obtain ⟨hxs, hx, hR, hw₁⟩ := hcall _ _ hw _ _ _ _ _ _ _ _ hc₁ hc₂ hin
        (hgiven _ (List.mem_append_right _ List.mem_cons_self) _
          (List.mem_append_right _ List.mem_cons_self))
      obtain ⟨halike, hrest⟩ := hk _ _ hR
      obtain ⟨hτ, hxs', hQ, hv⟩ := hrest _ _ hw₁ _ _ _ _ _ _ _ _ h₁ h₂ hlater
      exact ⟨.cons halike hτ, List.rel_append hxs (.cons hx hxs'), hQ, hv⟩

theorem lockstep_bind {p₁ p₂ : Prog S α} {f₁ f₂ : α → Prog S β} {R : α → α → Prop}
    {Q : β → β → Prop} (hp : C.Lockstep M ℓ p₁ p₂ R)
    (hf : ∀ a₁ a₂, R a₁ a₂ → C.Lockstep M ℓ (f₁ a₁) (f₂ a₂) Q) :
    C.Lockstep M ℓ (p₁ >>= f₁) (p₂ >>= f₂) Q := by
  intro w₁ w₂ hw τ₁ xs₁ b₁ v₁ τ₂ xs₂ b₂ v₂ h₁ h₂ hgiven
  obtain ⟨a₁, u₁, σ₁, σ₁', ys₁, ys₁', rfl, rfl, hp₁, hf₁⟩ := Semantics.observed_bind h₁
  obtain ⟨a₂, u₂, σ₂, σ₂', ys₂, ys₂', rfl, rfl, hp₂, hf₂⟩ := Semantics.observed_bind h₂
  have hleft : ∀ x₁ ∈ ys₁, ∀ x₂ ∈ ys₂, C.given x₁ x₂ := fun x₁ hx₁ x₂ hx₂ =>
    hgiven x₁ (List.mem_append_left _ hx₁) x₂ (List.mem_append_left _ hx₂)
  have hright : ∀ x₁ ∈ ys₁', ∀ x₂ ∈ ys₂', C.given x₁ x₂ := fun x₁ hx₁ x₂ hx₂ =>
    hgiven x₁ (List.mem_append_right _ hx₁) x₂ (List.mem_append_right _ hx₂)
  obtain ⟨hτ, hxs, hR, hu⟩ := hp w₁ w₂ hw _ _ _ _ _ _ _ _ hp₁ hp₂ hleft
  obtain ⟨hτ', hxs', hQ, hv⟩ := hf a₁ a₂ hR u₁ u₂ hu _ _ _ _ _ _ _ _ hf₁ hf₂ hright
  exact ⟨List.rel_append hτ hτ', List.rel_append hxs hxs', hQ, hv⟩

/-- A call that is served in lockstep. -/
theorem served_of_lockstep {p₁ p₂ : Prog S S.Resp} {R : S.Resp → S.Resp → Prop}
    (h : C.Lockstep M ℓ p₁ p₂ R) (hx : ∀ τ₁ τ₂ r₁ r₂, List.Forall₂ (C.alike ℓ) τ₁ τ₂ → R r₁ r₂ →
      C.exchanged ⟨ℓ, τ₁, r₁⟩ ⟨ℓ, τ₂, r₂⟩) : C.Served M (ℓ, p₁) (ℓ, p₂) R := by
  intro w₁ w₂ hw τ₁ xs₁ r₁ v₁ τ₂ xs₂ r₂ v₂ h₁ h₂ hgiven _
  obtain ⟨hτ, hxs, hR, hv⟩ := h w₁ w₂ hw _ _ _ _ _ _ _ _ h₁ h₂ hgiven
  exact ⟨hxs, hx _ _ _ _ hτ hR, hR, hv⟩

end Comparison

end Framework
