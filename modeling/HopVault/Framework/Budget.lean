import HopVault.Framework.Interleaving
import Mathlib.Algebra.Order.Group.Int
import Mathlib.Algebra.BigOperators.Group.List.Basic
import Mathlib.Tactic.Linarith

/-! # Bounding what a program causes

    Operations spend, some may earn, and a remote call hands the callee an
    allowance. A program is *covered* by an allowance if it never spends
    more, along any path. Whatever is still running, given up or lost then
    spends at most what is left: in every reachable configuration the
    total stays within the allowance of the start. -/

namespace Framework

/-- What operations and remote calls cost. -/
structure Budget {S : Sig} {L W : Type} (M : Distributed S L W) where
  /-- What has been spent so far. -/
  spent : W → Int
  cost : L → S.Op → Int
  /-- The allowance a remote call takes along. -/
  price : S.Req → Nat

namespace Budget

variable {S : Sig} {L W α β : Type} {M : Distributed S L W} (B : Budget M)

/-- The program spends at most `n`. -/
def Covers (ℓ : L) : Nat → Prog S α → Prop
  | _, .ret _ => True
  | n, .op e k => ∃ m : Nat, B.cost ℓ e + m ≤ n ∧ ∀ a, Covers ℓ m (k a)
  | n, .rpc q k => ∃ m : Nat, B.price q + m ≤ n ∧ ∀ r, Covers ℓ m (k r)

/-- The books are kept: operations spend what they cost, faults and the
    environment spend nothing, and callees keep to their allowance. -/
structure Lawful (E : W → W → Prop) : Prop where
  act : ∀ ℓ e w, B.spent (M.act ℓ e w).2 ≤ B.spent w + B.cost ℓ e
  giveUp : ∀ ℓ w, B.spent (M.giveUp ℓ w).2 ≤ B.spent w
  env : ∀ {w w'}, E w w' → B.spent w' ≤ B.spent w
  serve : ∀ ℓ q, B.Covers (M.serve ℓ q).1 (B.price q) (M.serve ℓ q).2

variable {B} {E : W → W → Prop}

@[simp] theorem covers_ret {ℓ : L} {n : Nat} {a : α} : B.Covers ℓ n (.ret a) := by
  cases n <;> trivial

theorem covers_op {ℓ : L} {n : Nat} {e : S.Op} {k : S.Ans e → Prog S α} :
    B.Covers ℓ n (.op e k) ↔ ∃ m : Nat, B.cost ℓ e + m ≤ n ∧ ∀ a, B.Covers ℓ m (k a) := by
  cases n <;> rfl

theorem covers_rpc {ℓ : L} {n : Nat} {q : S.Req} {k : S.Resp → Prog S α} :
    B.Covers ℓ n (.rpc q k) ↔ ∃ m : Nat, B.price q + m ≤ n ∧ ∀ r, B.Covers ℓ m (k r) := by
  cases n <;> rfl

/-- A larger allowance covers as well. -/
theorem Covers.mono {ℓ : L} {n n' : Nat} {p : Prog S α} (h : B.Covers ℓ n p) (hn : n ≤ n') :
    B.Covers ℓ n' p := by
  cases p with
  | ret a => simp
  | op e k =>
    obtain ⟨m, hm, hk⟩ := covers_op.mp h
    exact covers_op.mpr ⟨m, by omega, hk⟩
  | rpc q k =>
    obtain ⟨m, hm, hk⟩ := covers_rpc.mp h
    exact covers_rpc.mpr ⟨m, by omega, hk⟩

/-- A sequence of programs needs the sum of their allowances. -/
theorem Covers.bind {ℓ : L} {m n : Nat} {p : Prog S α} {f : α → Prog S β} (hp : B.Covers ℓ m p)
    (hf : ∀ a, B.Covers ℓ n (f a)) : B.Covers ℓ (m + n) (p >>= f) := by
  induction p generalizing m with
  | ret a => exact (hf a).mono (by omega)
  | op e k ih =>
    obtain ⟨m', hm', hk⟩ := covers_op.mp hp
    exact covers_op.mpr ⟨m' + n, by omega, fun a => ih a (hk a)⟩
  | rpc q k ih =>
    obtain ⟨m', hm', hk⟩ := covers_rpc.mp hp
    exact covers_rpc.mpr ⟨m' + n, by omega, fun r => ih r (hk r)⟩

/-- An operation that costs nothing. -/
theorem covers_free {ℓ : L} {n : Nat} {e : S.Op} {k : S.Ans e → Prog S α} (he : B.cost ℓ e = 0)
    (hk : ∀ a, B.Covers ℓ n (k a)) : B.Covers ℓ n (.op e k) :=
  covers_op.mpr ⟨n, by omega, hk⟩

/-- A program all of whose operations and calls are free. -/
theorem covers_of_all {ℓ : L} {p : Prog S α} {P : S.Op → Prop} {R : S.Req → Prop} {T : α → Prop}
    (h : p.All P R T) (hop : ∀ e, P e → B.cost ℓ e ≤ 0) (hreq : ∀ q, R q → B.price q = 0) :
    B.Covers ℓ 0 p := by
  induction p with
  | ret a => simp
  | op e k ih =>
    have hcost := hop e h.1
    exact covers_op.mpr ⟨0, by simpa using hcost, fun a => ih a (h.2 a)⟩
  | rpc q k ih =>
    have hprice := hreq q h.1
    exact covers_rpc.mpr ⟨0, by omega, fun r => ih r (h.2 r)⟩

/-! ## Soundness -/

/-- What a thread and the callers in it may still spend. -/
def ThreadCovers (B : Budget M) {α : Type} (n : Nat) : Thread S L α → Prop
  | .run ℓ p => B.Covers ℓ n p
  | .wait ℓ k callee => ∃ n₁ n₂, n₁ + n₂ ≤ n ∧ ThreadCovers B n₁ callee ∧ ∀ r, B.Covers ℓ n₂ (k r)

theorem ThreadCovers.step (hB : B.Lawful E) {t t' : Thread S L α} {n : Nat} {w w' : W}
    (h : ThreadCovers B n t) (hs : t.step M w = some (t', w')) :
    ∃ n' : Nat, B.spent w' + n' ≤ B.spent w + n ∧ ThreadCovers B n' t' := by
  -- a thread is as deep as its calls are nested, so the induction is on it
  induction t generalizing n w w' with
  | run ℓ p =>
    rcases Thread.run_step_cases M hs with ⟨e, k, rfl, rfl, rfl⟩ | ⟨q, k, rfl, rfl, rfl⟩
    · obtain ⟨m, hm, hk⟩ := covers_op.mp h
      -- what the effect books comes out of the thread's own account
      have hact := hB.act ℓ e w
      exact ⟨m, by omega, hk _⟩
    · obtain ⟨m, hm, hk⟩ := covers_rpc.mp h
      -- the callee gets its price, the caller keeps the rest
      exact ⟨n, le_refl _, B.price q, m, hm, hB.serve ℓ q, hk⟩
  | wait ℓ k c ih =>
    obtain ⟨n₁, n₂, hn, hc, hk⟩ := h
    rcases Thread.wait_step_cases M hs with ⟨ℓ', r, rfl, rfl, rfl⟩ | ⟨c', hcs, rfl⟩
    · -- the callee has answered, and its rest lapses
      exact ⟨n₂, by omega, hk r⟩
    · obtain ⟨n', hn', hc'⟩ := ih hc hcs
      exact ⟨n' + n₂, by push_cast; omega, n', n₂, le_refl _, hc', hk⟩

theorem ThreadCovers.expire (hB : B.Lawful E) {t t' : Thread S L α} {o : Thread S L S.Resp}
    {d n : Nat} {w w' : W} (h : ThreadCovers B n t) (hs : t.expire M d w = some (t', o, w')) :
    ∃ n' m : Nat, B.spent w' + (n' + m) ≤ B.spent w + n ∧ ThreadCovers B n' t' ∧
      ThreadCovers B m o := by
  induction t generalizing d n w w' with
  | run ℓ p => cases d <;> cases hs
  | wait ℓ k c ih =>
    obtain ⟨n₁, n₂, hn, hc, hk⟩ := h
    rcases Thread.wait_expire_cases M hs with ⟨rfl, rfl, rfl⟩ | ⟨c', d', hcs, rfl⟩
    · have hg := hB.giveUp ℓ w
      exact ⟨n₂, n₁, by omega, hk _, hc⟩
    · obtain ⟨n', m, hm, hc', ho⟩ := ih hc hcs
      exact ⟨n' + n₂, m, by push_cast; omega, ⟨n', n₂, le_refl _, hc', hk⟩, ho⟩

/-- What a move spends comes out of the thread's allowance, which it shares
    with the calls it orphans. -/
theorem ThreadCovers.moves (hB : B.Lawful E) {t t' : Thread S L α}
    {os : List (Thread S L S.Resp)} {n : Nat} {w w' : W} (h : ThreadCovers B n t)
    (hm : t.Moves M w t' os w') :
    ∃ (n' : Nat) (l : List (Nat × Thread S L S.Resp)), l.map Prod.snd = os ∧
      B.spent w' + n' + (l.map Prod.fst).sum ≤ B.spent w + n ∧ ThreadCovers B n' t' ∧
      ∀ x ∈ l, ThreadCovers B x.1 x.2 := by
  cases hm with
  | step hs =>
    obtain ⟨n', hn', ht'⟩ := h.step hB hs
    exact ⟨n', [], rfl, by simpa using hn', ht', by simp⟩
  | @expire _ _ _ o d hs =>
    obtain ⟨n', m, hm, ht', ho⟩ := h.expire hB hs
    refine ⟨n', [(m, o)], rfl, ?_, ht', by simpa using ho⟩
    simp only [List.map_cons, List.map_nil, List.sum_cons, List.sum_nil]
    omega

/-- The books of a configuration with one main thread: every orphan `x.2`
    has an allowance `x.1`. -/
def Balanced (B : Budget M) (total : Int) (c : Config S L W Unit α) : Prop :=
  ∃ (n : Nat) (l : List (Nat × Thread S L S.Resp)), l.map Prod.snd = c.orphans ∧
    B.spent c.world + n + (l.map Prod.fst).sum ≤ total ∧ ThreadCovers B n (c.main ()) ∧
    ∀ x ∈ l, ThreadCovers B x.1 x.2

theorem Balanced.step (hB : B.Lawful E) {total : Int} {c c' : Config S L W Unit α}
    (h : Balanced B total c) (hs : Config.Step M E c c') : Balanced B total c' := by
  obtain ⟨n, l, hl, hsum, hmain, horph⟩ := h
  cases hs with
  | @main i t' os w' hm =>
    -- orphans set free by a timeout take their share of the budget with them
    obtain ⟨n', l', hl', hsum', ht', hos⟩ := hmain.moves hB hm
    refine ⟨n', l' ++ l, by rw [List.map_append, hl', hl], ?_, ?_, fun x hx => ?_⟩
    · simp only [List.map_append, List.sum_append, Nat.cast_add]
      linarith
    · show ThreadCovers B n' (Function.update c.main () t' ())
      rw [Function.update_self]
      exact ht'
    · rcases List.mem_append.mp hx with hx | hx
      · exact hos x hx
      · exact horph x hx
  | @orphan before after t t' os w' hsplit hm =>
    -- the ledger is split where the orphan stands
    rw [hsplit] at hl
    obtain ⟨l₁, l₂, rfl, rfl, hl₂⟩ := List.map_eq_append_iff.mp hl
    obtain ⟨⟨m, t₀⟩, l₂, rfl, rfl, rfl⟩ := List.map_eq_cons_iff.mp hl₂
    obtain ⟨m', l', rfl, hsum', ht', hos⟩ := (horph (m, t₀) (by simp)).moves hB hm
    refine ⟨n, l' ++ (l₁ ++ (m', t') :: l₂), by simp, ?_, hmain, fun x hx => ?_⟩
    · simp only [List.map_append, List.map_cons, List.sum_append, List.sum_cons, Nat.cast_add]
        at hsum ⊢
      linarith
    · simp only [List.mem_append, List.mem_cons] at hx
      rcases hx with hx | hx | rfl | hx
      · exact hos x hx
      · exact horph x (by simp [hx])
      · exact ht'
      · exact horph x (by simp [hx])
  | env he =>
    have hspent := hB.env he
    exact ⟨n, l, hl, by dsimp only; linarith, hmain, horph⟩

/-- **Soundness**: a covered program, with everything it leaves behind,
    never spends more than its allowance. -/
theorem sound (hB : B.Lawful E) {w₀ : W} {ℓ : L} {p : Prog S α} {n : Nat} (hp : B.Covers ℓ n p)
    {c : Config S L W Unit α} (hreach : Config.Reaches M E ⟨w₀, fun _ => .run ℓ p, []⟩ c) :
    B.spent c.world ≤ B.spent w₀ + n := by
  have hinit : Balanced B (B.spent w₀ + n) ⟨w₀, fun _ => .run ℓ p, []⟩ :=
    ⟨n, [], rfl, by simp, hp, by simp⟩
  obtain ⟨m, l, -, hsum, -⟩ := hreach.invariant hinit fun _ _ h hs => h.step hB hs
  have hm : (0 : Int) ≤ m := Int.natCast_nonneg m
  have hl : (0 : Int) ≤ (l.map Prod.fst).sum := Int.natCast_nonneg _
  linarith

end Budget

end Framework
