import Mathlib.Data.List.Induction

/-! # Runs and their histories

    A run of a labelled transition relation, with the labels of its steps
    in order, and what can be said of a history: the latest entry with a
    property, and whether one has occurred since the last of another
    kind. -/

namespace Framework

variable {σ ε : Type}

/-! ## Runs -/

/-- Steps from one state to another, with their labels, oldest first. -/
inductive Steps (R : σ → ε → σ → Prop) (s : σ) : List ε → σ → Prop
  | nil : Steps R s [] s
  | snoc {h : List ε} {s' s'' : σ} {e : ε} : Steps R s h s' → R s' e s'' → Steps R s (h ++ [e]) s''

namespace Steps

variable {R : σ → ε → σ → Prop} {s s' s'' : σ} {h h₁ h₂ : List ε} {e : ε}

/-- **Invariant rule**: what holds at the start and is kept by every step
    holds at the end. -/
theorem invariant {I : σ → Prop} (hrun : Steps R s h s') (hinit : I s)
    (hstep : ∀ s e s', I s → R s e s' → I s') : I s' := by
  induction hrun with
  | nil => exact hinit
  | snoc _ he ih => exact hstep _ _ _ ih he

/-- The same for a property of the history and the state. -/
theorem induct {I : List ε → σ → Prop} (hrun : Steps R s h s') (hinit : I [] s)
    (hstep : ∀ h s' e s'', Steps R s h s' → I h s' → R s' e s'' → I (h ++ [e]) s'') : I h s' := by
  induction hrun with
  | nil => exact hinit
  | snoc hrun he ih => exact hstep _ _ _ _ hrun ih he

/-- A run is a run of every wider relation. -/
theorem mono {R' : σ → ε → σ → Prop} (himp : ∀ s e s', R s e s' → R' s e s')
    (hrun : Steps R s h s') : Steps R' s h s' := by
  induction hrun with
  | nil => exact .nil
  | snoc _ he ih => exact ih.snoc (himp _ _ _ he)

theorem single (he : R s e s') : Steps R s [e] s' := .snoc .nil he

theorem append (hrun₁ : Steps R s h₁ s') (hrun₂ : Steps R s' h₂ s'') :
    Steps R s (h₁ ++ h₂) s'' := by
  induction hrun₂ with
  | nil => simpa using hrun₁
  | snoc _ he ih =>
    rw [← List.append_assoc]
    exact ih.snoc he

theorem of_snoc (hrun : Steps R s (h ++ [e]) s'') : ∃ s', Steps R s h s' ∧ R s' e s'' := by
  generalize heq : h ++ [e] = h' at hrun
  cases hrun with
  | nil => simp at heq
  | @snoc h₁ s₁ _ e₁ hrun he =>
    obtain ⟨rfl, hee⟩ := List.append_inj' heq rfl
    obtain rfl : e = e₁ := by simpa using hee
    exact ⟨s₁, hrun, he⟩

/-- A run is a run over the first part of its history and one over the
    rest. -/
theorem of_append (hrun : Steps R s (h₁ ++ h₂) s'') :
    ∃ s', Steps R s h₁ s' ∧ Steps R s' h₂ s'' := by
  induction h₂ using List.reverseRecOn generalizing s'' with
  | nil =>
    rw [List.append_nil] at hrun
    exact ⟨s'', hrun, .nil⟩
  | append_singleton h₂ e ih =>
    rw [← List.append_assoc] at hrun
    obtain ⟨s₁, hrun, he⟩ := of_snoc hrun
    obtain ⟨s', hrun₁, hrun₂⟩ := ih hrun
    exact ⟨s', hrun₁, hrun₂.snoc he⟩

/-- The step at which an entry was made. -/
theorem of_append_cons (hrun : Steps R s (h₁ ++ e :: h₂) s'') :
    ∃ s₁ s₂, Steps R s h₁ s₁ ∧ R s₁ e s₂ ∧ Steps R s₂ h₂ s'' := by
  rw [List.append_cons] at hrun
  obtain ⟨s₂, hrun, hrun₂⟩ := of_append hrun
  obtain ⟨s₁, hrun₁, he⟩ := of_snoc hrun
  exact ⟨s₁, s₂, hrun₁, he, hrun₂⟩

end Steps

/-! ## Latest entries -/

/-- `e` is the latest entry with `P`; `after` has happened since. -/
structure Latest (P : ε → Prop) (h : List ε) (e : ε) (after : List ε) : Prop where
  split : ∃ before, h = before ++ e :: after
  holds : P e
  later : ∀ x ∈ after, ¬P x

namespace Latest

variable {P : ε → Prop} {h after after' : List ε} {e e' x : ε}

theorem self (he : P e) : Latest P (h ++ [e]) e [] := ⟨⟨h, rfl⟩, he, by simp⟩

/-- Entries without `P` come and go. -/
theorem snoc (hl : Latest P h e after) (hx : ¬P x) : Latest P (h ++ [x]) e (after ++ [x]) := by
  obtain ⟨before, rfl⟩ := hl.split
  refine ⟨⟨before, by simp⟩, hl.holds, fun y hy => ?_⟩
  rcases List.mem_append.mp hy with hy | hy
  · exact hl.later y hy
  · rw [List.mem_singleton.mp hy]
    exact hx

theorem mem (hl : Latest P h e after) : e ∈ h := by
  obtain ⟨before, rfl⟩ := hl.split
  simp

/-- It is the latest in every last part of the history that has one. -/
theorem suffix {since : List ε} (hl : Latest P h e after) (hsince : since <:+ h) (hx : x ∈ since)
    (hP : P x) : Latest P since e after := by
  obtain ⟨past, hpast⟩ := hsince
  obtain ⟨before, hsplit⟩ := hl.split
  -- the part begins before the entry, with it, or after it
  rcases List.append_eq_append_iff.mp (hpast.trans hsplit) with ⟨c, -, hrest⟩ | ⟨c, -, hrest⟩
  · exact ⟨⟨c, hrest⟩, hl.holds, hl.later⟩
  · cases c with
    | nil => exact ⟨⟨[], hrest.symm⟩, hl.holds, hl.later⟩
    | cons y c =>
      obtain ⟨rfl, rfl⟩ : e = y ∧ after = c ++ since := by simpa using hrest
      exact absurd hP (hl.later x (List.mem_append_right c hx))

/-- There is one latest entry. -/
theorem unique (hl : Latest P h e after) (hl' : Latest P h e' after') : e = e' ∧ after = after' := by
  obtain ⟨before, hsplit⟩ := hl.split
  obtain ⟨before', hsplit'⟩ := hl'.split
  rw [hsplit] at hsplit'
  -- if one were further back, the other would be a later entry with P
  rcases List.append_eq_append_iff.mp hsplit' with ⟨c, hbefore, hrest⟩ | ⟨c, hbefore, hrest⟩
  · cases c with
    | nil => simpa using hrest
    | cons y c =>
      obtain ⟨rfl, rfl⟩ : e = y ∧ after = c ++ e' :: after' := by simpa using hrest
      exact absurd hl'.holds (hl.later e' (by simp))
  · cases c with
    | nil => simpa [eq_comm] using hrest
    | cons y c =>
      obtain ⟨rfl, rfl⟩ : e' = y ∧ after' = c ++ e :: after := by simpa using hrest
      exact absurd hl.holds (hl'.later e (by simp))

end Latest

/-! ## Since the last -/

/-- An entry with `P` has been made since the last one with `Q`. -/
def SinceLast (Q P : ε → Prop) (h : List ε) : Prop :=
  ∃ before e after, h = before ++ e :: after ∧ P e ∧ ∀ x ∈ after, ¬Q x

@[simp] theorem not_sinceLast_nil {Q P : ε → Prop} : ¬SinceLast Q P [] := by
  rintro ⟨before, e, after, h, -⟩
  simp at h

/-- What one more entry changes. -/
theorem sinceLast_snoc {Q P : ε → Prop} {h : List ε} {x : ε} :
    SinceLast Q P (h ++ [x]) ↔ P x ∨ (¬Q x ∧ SinceLast Q P h) := by
  constructor
  · rintro ⟨before, e, after, hsplit, he, hafter⟩
    -- the last entry is the one asked for, or lies after it
    rcases List.eq_nil_or_concat after with rfl | ⟨after, y, rfl⟩
    · obtain ⟨-, hx⟩ := List.append_inj' hsplit rfl
      obtain rfl : x = e := by simpa using hx
      exact .inl he
    · have hsplit : h ++ [x] = (before ++ e :: after) ++ [y] := by simpa using hsplit
      obtain ⟨rfl, hx⟩ := List.append_inj' hsplit rfl
      obtain rfl : x = y := by simpa using hx
      exact .inr ⟨hafter x (by simp), before, e, after, rfl, he,
        fun z hz => hafter z (by simp [hz])⟩
  · rintro (hx | ⟨hx, before, e, after, rfl, he, hafter⟩)
    · exact ⟨h, x, [], rfl, hx, by simp⟩
    · refine ⟨before, e, after ++ [x], by simp, he, fun z hz => ?_⟩
      rcases List.mem_append.mp hz with hz | hz
      · exact hafter z hz
      · rw [List.mem_singleton.mp hz]
        exact hx

end Framework
