import Mathlib.Data.List.Infix

/-! # Searching in composed texts

    When a text is put together from parts with separators between them, a
    word without the separator occurs in it exactly if it occurs in one of
    the parts. -/

namespace Framework

variable {α : Type} {word a b : List α} {x : α}

/-- A word does not go across a separator it does not have. -/
theorem infix_append_cons (hx : x ∉ word) :
    word <:+: a ++ x :: b ↔ word <:+: a ∨ word <:+: b := by
  constructor
  · intro h
    obtain ⟨s, t, h⟩ := h
    rcases List.append_eq_append_iff.mp h with ⟨c, ha, -⟩ | ⟨c, hs, ht⟩
    · exact .inl ⟨s, c, ha.symm⟩
    · cases c with
      | nil =>
        rw [List.append_nil] at hs
        exact .inl ⟨s, [], by rw [List.append_nil, hs]⟩
      | cons y c =>
        obtain ⟨rfl, rfl⟩ : x = y ∧ b = c ++ t := by simpa using ht
        -- the separator comes before the word, or in it
        rcases List.append_eq_append_iff.mp hs with ⟨d, -, hword⟩ | ⟨d, -, hafter⟩
        · rw [hword] at hx
          exact absurd (List.mem_append_right d (List.mem_cons_self)) hx
        · cases d with
          | nil =>
            rw [List.nil_append] at hafter
            rw [← hafter] at hx
            exact absurd List.mem_cons_self hx
          | cons y d =>
            obtain ⟨rfl, rfl⟩ : x = y ∧ c = d ++ word := by simpa using hafter
            exact .inr ⟨d, t, rfl⟩
  · intro h
    rcases h with ha | hb
    · exact ha.trans (List.prefix_append a (x :: b)).isInfix
    · exact hb.trans ((List.suffix_cons x b).trans (List.suffix_append a (x :: b))).isInfix

/-- A word does not begin with an octet that is not its first. -/
theorem infix_cons (hword : word ≠ []) (hx : word.head? ≠ some x) :
    word <:+: x :: b ↔ word <:+: b := by
  rw [List.infix_cons_iff]
  constructor
  · intro h
    rcases h with hstart | hb
    · obtain ⟨t, ht⟩ := hstart
      cases word with
      | nil => exact absurd rfl hword
      | cons y word =>
        rw [List.cons_append, List.cons.injEq] at ht
        exact absurd (congrArg some ht.1) hx
    · exact hb
  · exact Or.inr

end Framework
