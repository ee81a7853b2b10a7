import HopVault.Framework.History
import HopVault.Framework.Path

/-! # Programs and their past

    What has to have happened before a program makes a call. The past is
    the list of the interactions so far, with their answers; there is a rule
    for each construct of a program, and what is shown with them holds along
    every path. At the end, programs within a larger system, with operations
    of its own. -/

namespace Framework

namespace Prog

variable {S : Sig} {α β : Type}

/-- Every remote call is allowed by the past at its time, and a result
    satisfies `Q` with the past by then. -/
def Safe (A : List (Interaction S) → S.Req → Prop) :
    Prog S α → List (Interaction S) → (List (Interaction S) → α → Prop) → Prop
  | ret a, past, Q => Q past a
  | op e k, past, Q => ∀ x, Safe A (k x) (past ++ [.op e x]) Q
  | rpc q k, past, Q => A past q ∧ ∀ r, Safe A (k r) (past ++ [.rpc q r]) Q

variable {A : List (Interaction S) → S.Req → Prop} {past τ : List (Interaction S)}
  {Q R : List (Interaction S) → α → Prop} {a : α}

@[simp] theorem safe_ret : (ret a : Prog S α).Safe A past Q ↔ Q past a := Iff.rfl

@[simp] theorem safe_op {e : S.Op} {k : S.Ans e → Prog S α} :
    (op e k).Safe A past Q ↔ ∀ x, (k x).Safe A (past ++ [.op e x]) Q := Iff.rfl

@[simp] theorem safe_rpc {q : S.Req} {k : S.Resp → Prog S α} :
    (rpc q k).Safe A past Q ↔ A past q ∧ ∀ r, (k r).Safe A (past ++ [.rpc q r]) Q := Iff.rfl

/-- A weaker claim about the results. -/
theorem Safe.weaken {p : Prog S α} (h : p.Safe A past Q) (hQ : ∀ past a, Q past a → R past a) :
    p.Safe A past R := by
  induction p generalizing past with
  | ret a => exact hQ past a h
  | op e k ih => exact fun x => ih x (h x)
  | rpc q k ih => exact ⟨h.1, fun r => ih r (h.2 r)⟩

/-- A sequence of two programs. -/
theorem safe_bind {p : Prog S α} {f : α → Prog S β} {T : List (Interaction S) → β → Prop}
    (hp : p.Safe A past Q) (hf : ∀ past a, Q past a → (f a).Safe A past T) :
    (p >>= f).Safe A past T := by
  induction p generalizing past with
  | ret a => exact hf past a hp
  | op e k ih => exact fun x => ih x (hp x)
  | rpc q k ih => exact ⟨hp.1, fun r => ih r (hp.2 r)⟩

/-- The past at each call of a path. -/
def CallsAllowed (A : List (Interaction S) → S.Req → Prop) (past τ : List (Interaction S)) : Prop :=
  ∀ before q r after, τ = before ++ .rpc q r :: after → A (past ++ before) q

theorem callsAllowed_nil : CallsAllowed A past [] := by
  intro before q r after h
  simp at h

theorem callsAllowed_cons {x : Interaction S} (hx : ∀ q r, x = .rpc q r → A past q)
    (h : CallsAllowed A (past ++ [x]) τ) : CallsAllowed A past (x :: τ) := by
  intro before q r after heq
  cases before with
  | nil =>
    obtain ⟨rfl, -⟩ := List.cons.inj heq
    rw [List.append_nil]
    exact hx q r rfl
  | cons y before =>
    rw [List.cons_append, List.cons.injEq] at heq
    obtain ⟨rfl, hτ⟩ := heq
    have hcall := h before q r after hτ
    rwa [List.append_assoc] at hcall

theorem CallsAllowed.append {τ' : List (Interaction S)} (h : CallsAllowed A past τ)
    (h' : CallsAllowed A (past ++ τ) τ') : CallsAllowed A past (τ ++ τ') := by
  induction τ generalizing past with
  | nil => rwa [List.append_nil] at h'
  | cons x τ ih =>
    refine callsAllowed_cons (fun q r hx => ?_) (ih ?_ ?_)
    · have hcall := h [] q r τ (by rw [hx]; rfl)
      rwa [List.append_nil] at hcall
    · intro before q r after heq
      have hcall := h (x :: before) q r after (by rw [heq]; rfl)
      rwa [List.append_assoc]
    · rwa [List.append_assoc]

/-- **Soundness**: along every path each call is allowed, and the result
    satisfies `Q`. -/
theorem Safe.of_path {p : Prog S α} (h : p.Safe A past Q) (hτ : p.Path τ a) :
    Q (past ++ τ) a ∧ CallsAllowed A past τ := by
  induction hτ generalizing past with
  | ret =>
    rw [List.append_nil]
    exact ⟨h, callsAllowed_nil⟩
  | op _ ih =>
    obtain ⟨hQ, hcalls⟩ := ih (h _)
    rw [List.append_assoc] at hQ
    refine ⟨hQ, callsAllowed_cons ?_ hcalls⟩
    intro q r hx
    cases hx
  | rpc _ ih =>
    obtain ⟨hQ, hcalls⟩ := ih (h.2 _)
    rw [List.append_assoc] at hQ
    refine ⟨hQ, callsAllowed_cons ?_ hcalls⟩
    intro q r hx
    cases hx
    exact h.1

/-- The path on which an operation always has the same answer, and so has a
    call. -/
def answered (ans : (e : S.Op) → S.Ans e) (resp : S.Req → S.Resp) :
    Prog S α → List (Interaction S) × α
  | ret a => ([], a)
  | op e k =>
    let r := (k (ans e)).answered ans resp
    (.op e (ans e) :: r.1, r.2)
  | rpc q k =>
    let r := (k (resp q)).answered ans resp
    (.rpc q (resp q) :: r.1, r.2)

theorem path_answered (ans : (e : S.Op) → S.Ans e) (resp : S.Req → S.Resp) (p : Prog S α) :
    p.Path (p.answered ans resp).1 (p.answered ans resp).2 := by
  induction p with
  | ret a => exact .ret
  | op e k ih => exact .op (ih _)
  | rpc q k ih => exact .rpc (ih _)

end Prog

/-! ## One program after another -/

/-- Without a later entry with `R`, one since the last with `Q` is further
    back, and no later entry has `Q`. -/
theorem sinceLast_append {ε : Type} {Q R : ε → Prop} {h τ : List ε} (hs : SinceLast Q R (h ++ τ))
    (hτ : ∀ x ∈ τ, ¬R x) : SinceLast Q R h ∧ ∀ x ∈ τ, ¬Q x := by
  induction τ using List.reverseRecOn with
  | nil => simpa using hs
  | append_singleton τ x ih =>
    rw [← List.append_assoc, sinceLast_snoc] at hs
    rcases hs with hx | ⟨hx, hs⟩
    · exact absurd hx (hτ x (by simp))
    · obtain ⟨hs, hτ⟩ := ih hs fun y hy => hτ y (by simp [hy])
      refine ⟨hs, fun y hy => ?_⟩
      rcases List.mem_append.mp hy with hy | hy
      · exact hτ y hy
      · exact List.mem_singleton.mp hy ▸ hx

/-- A run of a program over and over, which passes a state on; a label is
    what it did and what it returned. -/
abbrev Rounds {S : Sig} {σ β : Type} (task : σ → Prog S (β × σ)) :
    σ → List (List (Interaction S) × β) → σ → Prop :=
  Steps fun s e s' => (task s).Path e.1 (e.2, s')

/-- **Rounds rule**: what each round keeps holds after all of them, every
    call is allowed by all that came before it, and what each round does has
    the property shown of it. -/
theorem Rounds.safe {S : Sig} {σ β : Type} {task : σ → Prog S (β × σ)}
    {A : List (Interaction S) → S.Req → Prop} {I : List (Interaction S) → σ → Prop}
    {R : List (Interaction S) → β → Prop}
    (htask : ∀ past s, I past s → (task s).Safe A past fun past' r =>
      I past' r.2 ∧ ∀ τ, past' = past ++ τ → R τ r.1)
    {past : List (Interaction S)} {s s' : σ} {h : List (List (Interaction S) × β)}
    (hrun : Rounds task s h s') (hs : I past s) :
    I (past ++ h.flatMap Prod.fst) s' ∧ Prog.CallsAllowed A past (h.flatMap Prod.fst) ∧
      ∀ e ∈ h, R e.1 e.2 := by
  refine Steps.induct hrun (I := fun h s => I (past ++ h.flatMap Prod.fst) s ∧
    Prog.CallsAllowed A past (h.flatMap Prod.fst) ∧ ∀ e ∈ h, R e.1 e.2) ?_ ?_
  · simpa using ⟨hs, Prog.callsAllowed_nil⟩
  · intro h s e s' _ ih hpath
    obtain ⟨hI, hcalls, hR⟩ := ih
    obtain ⟨⟨hI', hR'⟩, hcalls'⟩ := (htask _ _ hI).of_path hpath
    rw [List.flatMap_append, List.flatMap_singleton, ← List.append_assoc]
    refine ⟨hI', hcalls.append hcalls', fun x hx => ?_⟩
    rcases List.mem_append.mp hx with hx | hx
    · exact hR x hx
    · rw [List.mem_singleton.mp hx]
      exact hR' e.1 rfl

/-! ## Programs within a larger system -/

/-- A system with more operations. -/
abbrev Sig.plus (S : Sig) (O : Type) (B : O → Type) : Sig where
  Op := S.Op ⊕ O
  Ans := Sum.elim S.Ans B
  Req := S.Req
  Resp := S.Resp

variable {S : Sig} {O : Type} {B : O → Type} {α : Type}

/-- The same interaction in the larger system. -/
def Interaction.inner : Interaction S → Interaction (S.plus O B)
  | .op e x => .op (.inl e) x
  | .rpc q r => .rpc q r

/-- What it is in the smaller system, if it is one there. -/
def Interaction.project : Interaction (S.plus O B) → Option (Interaction S)
  | .op (.inl e) x => some (.op e x)
  | .op (.inr _) _ => none
  | .rpc q r => some (.rpc q r)

@[simp] theorem Interaction.project_inner (x : Interaction S) :
    (x.inner : Interaction (S.plus O B)).project = some x := by
  cases x <;> rfl

@[simp] theorem filterMap_project_inner (τ : List (Interaction S)) :
    (τ.map (Interaction.inner : Interaction S → Interaction (S.plus O B))).filterMap
      Interaction.project = τ := by
  have hsome : Interaction.project ∘ (Interaction.inner : Interaction S → Interaction (S.plus O B)) =
      some := funext Interaction.project_inner
  rw [List.filterMap_map, hsome, List.filterMap_some]

namespace Prog

/-- The same program in the larger system. -/
def inner : Prog S α → Prog (S.plus O B) α
  | ret a => ret a
  | op e k => op (.inl e) fun x => (k x).inner
  | rpc q k => rpc q fun r => (k r).inner

/-- One of the operations that the larger system adds. -/
def outer (o : O) : Prog (S.plus O B) (B o) := op (S := S.plus O B) (.inr o) ret

/-- **Lifting**: what is shown of a program within its own system holds in
    the larger one, and it performs no operation that was added. -/
theorem Safe.lift {A : List (Interaction (S.plus O B)) → S.Req → Prop}
    {C : List (Interaction S) → S.Req → Prop} {p : Prog S α} {past : List (Interaction (S.plus O B))}
    {Q : List (Interaction S) → α → Prop} (hp : p.Safe C (past.filterMap Interaction.project) Q)
    (hA : ∀ τ q, C (past.filterMap Interaction.project ++ τ) q → A (past ++ τ.map .inner) q) :
    (p.inner : Prog (S.plus O B) α).Safe A past fun past' a =>
      ∃ τ, past' = past ++ τ.map .inner ∧ Q (past.filterMap Interaction.project ++ τ) a := by
  -- one interaction more, in both systems
  have hgrown (past : List (Interaction (S.plus O B))) (x : Interaction S) :
      (past ++ [x.inner]).filterMap Interaction.project =
        past.filterMap Interaction.project ++ [x] := by
    rw [List.filterMap_append]
    simp
  induction p generalizing past with
  | ret a => exact ⟨[], by simp, by simpa using hp⟩
  | op e k ih =>
    intro x
    refine Safe.weaken (@ih x (past ++ [(Interaction.op e x).inner]) ?_ ?_) ?_
    · rw [hgrown]
      exact hp x
    · intro τ q h
      rw [hgrown, List.append_assoc] at h
      simpa using hA (.op e x :: τ) q h
    · rintro _ a ⟨τ, rfl, hQ⟩
      rw [hgrown, List.append_assoc] at hQ
      exact ⟨.op e x :: τ, by simp, hQ⟩
  | rpc q k ih =>
    refine ⟨by simpa using hA [] q (by simpa using hp.1), fun r => ?_⟩
    refine Safe.weaken (@ih r (past ++ [(Interaction.rpc q r).inner]) ?_ ?_) ?_
    · rw [hgrown]
      exact hp.2 r
    · intro τ q' h
      rw [hgrown, List.append_assoc] at h
      simpa using hA (.rpc q r :: τ) q' h
    · rintro _ a ⟨τ, rfl, hQ⟩
      rw [hgrown, List.append_assoc] at hQ
      exact ⟨.rpc q r :: τ, by simp, hQ⟩

end Prog

end Framework
