import HopVault.Framework.Count
import HopVault.Framework.Path

/-! # Retry loops

    A loop that makes attempts until one of them ends it, or a number of
    them has been made. An attempt has an outcome, and either gives the
    result of the loop or the state from which the next attempt is made.

    From what is known of one attempt follows what a whole loop does on a
    sequence of outcomes: which attempts are made, what they cost, and
    whether the loop succeeds. -/

namespace Framework

open Semantics

variable {S : Sig} {σ α β : Type}

/-! ## Loops -/

/-- At most `n` attempts. -/
def retry (attempt : σ → Prog S (α × (β ⊕ σ))) (exhausted : σ → β) : Nat → σ → Prog S β
  | 0, s => .ret (exhausted s)
  | n + 1, s => attempt s >>= fun r =>
    match r.2 with
    | .inl b => .ret b
    | .inr s' => retry attempt exhausted n s'

/-- The same loop, with the outcomes of its attempts. -/
def retryTraced (attempt : σ → Prog S (α × (β ⊕ σ))) (exhausted : σ → β) :
    Nat → σ → Prog S (List α × β)
  | 0, s => .ret ([], exhausted s)
  | n + 1, s => attempt s >>= fun r =>
    match r.2 with
    | .inl b => .ret ([r.1], b)
    | .inr s' => retryTraced attempt exhausted n s' >>= fun p => .ret (r.1 :: p.1, p.2)

/-- To trace a loop changes nothing it does. -/
theorem retryTraced_forget (attempt : σ → Prog S (α × (β ⊕ σ))) (exhausted : σ → β) (n : Nat)
    (s : σ) : (retryTraced attempt exhausted n s >>= fun p => .ret p.2) =
      retry attempt exhausted n s := by
  induction n generalizing s with
  | zero => rfl
  | succ n ih =>
    unfold retryTraced retry
    rw [Prog.bind_assoc]
    congr 1
    funext r
    obtain ⟨a, b | s'⟩ := r
    · rfl
    · dsimp only
      rw [Prog.bind_assoc, ← ih s']
      rfl

/-- A path of a loop goes through an attempt, and ends there or goes on
    with a loop of one attempt less. -/
theorem path_retry_succ {attempt : σ → Prog S (α × (β ⊕ σ))} {exhausted : σ → β} {n : Nat} {s : σ}
    {τ : List (Interaction S)} {b : β} (h : Prog.Path (retry attempt exhausted (n + 1) s) τ b) :
    (∃ a, Prog.Path (attempt s) τ (a, .inl b)) ∨
    ∃ a s' τ₁ τ₂, τ = τ₁ ++ τ₂ ∧ Prog.Path (attempt s) τ₁ (a, .inr s') ∧
      Prog.Path (retry attempt exhausted n s') τ₂ b := by
  unfold retry at h
  obtain ⟨⟨a, next⟩, τ₁, τ₂, rfl, hattempt, hrest⟩ := Prog.path_bind.mp h
  cases next with
  | inl b' =>
    obtain ⟨rfl, rfl⟩ := Prog.path_ret.mp hrest
    left
    rw [List.append_nil]
    exact ⟨a, hattempt⟩
  | inr s' => exact .inr ⟨a, s', τ₁, τ₂, rfl, hattempt, hrest⟩

/-! ## Outcomes -/

/-- The first outcomes of a sequence, up to the first that is not tried
    again, and `n` at most. -/
def attempts (again : α → Bool) : Nat → (Nat → α) → List α
  | 0, _ => []
  | n + 1, o => o 0 :: if again (o 0) then attempts again n fun k => o (k + 1) else []

/-- Of two loops, the one that tries again after more outcomes makes the
    attempts of the other, and maybe more. -/
theorem attempts_prefix {again₁ again₂ : α → Bool} (h : ∀ a, again₁ a = true → again₂ a = true)
    (n : Nat) (o : Nat → α) : attempts again₁ n o <+: attempts again₂ n o := by
  induction n generalizing o with
  | zero => exact List.prefix_rfl
  | succ n ih =>
    unfold attempts
    rw [List.cons_prefix_cons]
    refine ⟨rfl, ?_⟩
    by_cases h₁ : again₁ (o 0) = true
    · rw [if_pos h₁, if_pos (h _ h₁)]
      exact ih _
    · rw [if_neg h₁]
      exact List.nil_prefix

/-- They make the same attempts exactly if they agree on each that is
    reached, the last one apart. -/
theorem attempts_eq_iff {again₁ again₂ : α → Bool} (h : ∀ a, again₁ a = true → again₂ a = true)
    (n : Nat) (o : Nat → α) : attempts again₁ n o = attempts again₂ n o ↔
      ∀ k, k + 1 < n → (∀ j < k, again₁ (o j) = true) → again₂ (o k) = again₁ (o k) := by
  induction n generalizing o with
  | zero => exact iff_of_true rfl fun k hk => absurd hk (by omega)
  | succ n ih =>
    unfold attempts
    rw [List.cons_inj_right]
    by_cases h₁ : again₁ (o 0) = true
    · -- both loops go on after the first attempt
      rw [if_pos h₁, if_pos (h _ h₁), ih]
      constructor
      · intro hrest k hk hreached
        cases k with
        | zero => rw [h₁, h _ h₁]
        | succ k => exact hrest k (by omega) fun j hj => hreached (j + 1) (by omega)
      · intro hall k hk hreached
        refine hall (k + 1) (by omega) fun j hj => ?_
        cases j with
        | zero => exact h₁
        | succ j => exact hreached j (by omega)
    · -- the first loop stops here
      rw [if_neg h₁]
      constructor
      · intro htail k hk hreached
        cases k with
        | zero =>
          -- the second loop must stop here too, since another attempt remains
          obtain ⟨m, rfl⟩ : ∃ m, n = m + 1 := ⟨n - 1, by omega⟩
          by_cases h₂ : again₂ (o 0) = true
          · rw [if_pos h₂] at htail
            cases htail
          · rw [Bool.not_eq_true] at h₁ h₂
            rw [h₁, h₂]
        | succ k => exact absurd (hreached 0 (by omega)) h₁
      · intro hall
        cases n with
        | zero => split_ifs <;> rfl
        | succ n =>
          have h₂ := hall 0 (by omega) fun j hj => absurd hj (by omega)
          rw [if_neg (by rw [h₂]; exact h₁)]

/-- The attempts of a loop ended as the sequence says. -/
def Follows (as : List α) (o : Nat → α) : Prop := ∀ k (h : k < as.length), as[k] = o k

theorem follows_cons {a : α} {as : List α} {o : Nat → α} :
    Follows (a :: as) o ↔ a = o 0 ∧ Follows as fun k => o (k + 1) := by
  constructor
  · intro h
    exact ⟨h 0 (by simp), fun k hk => h (k + 1) (by simpa using hk)⟩
  · rintro ⟨h0, h⟩ k hk
    cases k with
    | zero => exact h0
    | succ k => exact h k (by simpa using hk)

theorem follows_snoc {as : List α} {a : α} {o : Nat → α} :
    Follows (as ++ [a]) o ↔ Follows as o ∧ a = o as.length := by
  constructor
  · intro h
    constructor
    · intro k hk
      have hat := h k (by rw [List.length_append]; omega)
      rwa [List.getElem_append_left hk] at hat
    · have hat := h as.length (by simp)
      rwa [List.getElem_concat_length rfl] at hat
  · intro h k hk
    rw [List.length_append, List.length_singleton] at hk
    -- the position is one of the old ones or the last
    by_cases hlt : k < as.length
    · rw [List.getElem_append_left hlt]
      exact h.1 k hlt
    · obtain rfl : k = as.length := by omega
      rw [List.getElem_concat_length rfl]
      exact h.2

/-- A list that follows a sequence is its beginning. -/
theorem Follows.eq_map {as : List α} {o : Nat → α} (h : Follows as o) :
    as = (List.range as.length).map o := by
  apply List.ext_getElem
  · simp
  · intro k hk _
    rw [List.getElem_map, List.getElem_range]
    exact h k hk

/-! ## From one attempt to the loop -/

variable {L W C : Type} [AddCommMonoid C] {M : Semantics S L W} {f : S.Op → C} {g : S.Req → C}
  {ℓ : L}

/-- What an attempt does, by its outcome: `again` says whether another one
    follows, `cost` what it costs, and `good` whether it is the success of
    the loop, which results with `Good` report. -/
structure AttemptSpec (M : Semantics S L W) (f : S.Op → C) (g : S.Req → C) (ℓ : L)
    (attempt : σ → Prog S (α × (β ⊕ σ))) (exhausted : σ → β) (again good : α → Bool) (cost : α → C)
    (Good : β → Prop) : Prop where
  cost : ∀ {s w r w' n}, M.Counts f g ℓ (attempt s) w r w' n → n = cost r.1
  final : ∀ {s w a b w' n}, M.Counts f g ℓ (attempt s) w (a, .inl b) w' n →
    again a = false ∧ (Good b ↔ good a = true)
  next : ∀ {s w a s' w' n}, M.Counts f g ℓ (attempt s) w (a, .inr s') w' n →
    again a = true ∧ good a = false
  exhausted : ∀ s, ¬Good (exhausted s)

/-- A loop makes the attempts the sequence of outcomes asks for, at their
    cost, and succeeds exactly if one of them does. -/
theorem counts_retryTraced {attempt : σ → Prog S (α × (β ⊕ σ))} {exhausted : σ → β}
    {again good : α → Bool} {cost : α → C} {Good : β → Prop}
    (hspec : AttemptSpec M f g ℓ attempt exhausted again good cost Good) {n : Nat} {s : σ}
    {w w' : W} {as : List α} {b : β} {c : C} {o : Nat → α}
    (hrun : M.Counts f g ℓ (retryTraced attempt exhausted n s) w (as, b) w' c)
    (hfollows : Follows as o) :
    as = attempts again n o ∧ c = (as.map cost).sum ∧ (Good b ↔ ∃ a ∈ as, good a = true) := by
  induction n generalizing s w as b c o with
  | zero =>
    obtain ⟨hab, rfl, rfl⟩ := counts_ret.mp hrun
    obtain ⟨rfl, rfl⟩ := Prod.mk.inj hab
    refine ⟨rfl, by simp, ?_⟩
    exact iff_of_false (hspec.exhausted s) (by simp)
  | succ n ih =>
    unfold retryTraced at hrun
    obtain ⟨⟨a, next⟩, w₁, c₁, c₂, hattempt, hrest, rfl⟩ := counts_bind.mp hrun
    have hcost : c₁ = cost a := hspec.cost hattempt
    -- either the attempt is final, or the loop goes on in the next state
    cases next with
    | inl b' =>
      -- the attempt ended the loop
      obtain ⟨hab, rfl, rfl⟩ := counts_ret.mp hrest
      obtain ⟨rfl, rfl⟩ := Prod.mk.inj hab
      obtain ⟨hstop, hgood⟩ := hspec.final hattempt
      obtain ⟨ha, -⟩ := follows_cons.mp hfollows
      refine ⟨?_, ?_, ?_⟩
      · unfold attempts
        rw [← ha, hstop]
        rfl
      · simpa using hcost
      · simpa using hgood
    | inr s' =>
      obtain ⟨⟨as', b'⟩, w₂, c₃, c₄, htail, hret, rfl⟩ := counts_bind.mp hrest
      obtain ⟨hab, rfl, rfl⟩ := counts_ret.mp hret
      obtain ⟨rfl, rfl⟩ := Prod.mk.inj hab
      -- an attempt after which the loop goes on is not a good one
      obtain ⟨hagain, hbad⟩ := hspec.next hattempt
      obtain ⟨ha, htailFollows⟩ := follows_cons.mp hfollows
      obtain ⟨has, hsum, hgood⟩ := ih htail htailFollows
      refine ⟨?_, ?_, ?_⟩
      · unfold attempts
        rw [← ha, hagain, if_pos rfl]
        exact congrArg (a :: ·) has
      · rw [List.map_cons, List.sum_cons, hcost, hsum, add_zero]
      · rw [hgood]
        simp [hbad]

end Framework
