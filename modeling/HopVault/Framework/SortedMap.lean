import Mathlib.Order.Basic
import Mathlib.Order.Lattice
import Mathlib.Data.List.Nodup

/-! # Maps with sorted keys

    A finite map as the list of its entries in increasing key order. The
    order is carried as a field, so two maps with the same bindings are
    equal, and a writer that emits keys in order writes `entries`. -/

namespace Framework

/-- A finite map; `entries` are in strictly increasing key order. -/
structure SortedMap (κ β : Type) [LinearOrder κ] where
  entries : List (κ × β)
  sorted : entries.Pairwise fun a b => a.1 < b.1

namespace SortedMap

variable {κ β : Type} [LinearOrder κ]

@[ext] theorem ext {m m' : SortedMap κ β} (h : m.entries = m'.entries) : m = m' := by
  cases m; cases m'; cases h; rfl

instance [DecidableEq β] : DecidableEq (SortedMap κ β) := fun m m' =>
  decidable_of_iff (m.entries = m'.entries) ⟨ext, fun h => h ▸ rfl⟩

/-- The map without bindings. -/
def empty : SortedMap κ β := ⟨[], List.Pairwise.nil⟩

instance : Inhabited (SortedMap κ β) := ⟨empty⟩

/-- Insert or replace a binding in a list of entries. -/
def insertEntry (k : κ) (v : β) : List (κ × β) → List (κ × β)
  | [] => [(k, v)]
  | (k', v') :: l =>
    if k < k' then (k, v) :: (k', v') :: l
    else if k = k' then (k, v) :: l
    else (k', v') :: insertEntry k v l

theorem mem_insertEntry {k : κ} {v : β} {l : List (κ × β)} {e : κ × β}
    (h : e ∈ insertEntry k v l) : e = (k, v) ∨ e ∈ l := by
  induction l with
  | nil => simpa [insertEntry] using h
  | cons a l ih =>
    obtain ⟨k', v'⟩ := a
    simp only [insertEntry] at h
    -- the new entry comes first, replaces the first one, or goes further back
    split_ifs at h with h1 h2
    · simpa using h
    · rcases List.mem_cons.mp h with rfl | h
      · exact .inl rfl
      · exact .inr (List.mem_cons_of_mem _ h)
    · rcases List.mem_cons.mp h with rfl | h
      · exact .inr (by simp)
      · rcases ih h with h | h
        · exact .inl h
        · exact .inr (List.mem_cons_of_mem _ h)

theorem sorted_insertEntry (k : κ) (v : β) {l : List (κ × β)}
    (h : l.Pairwise fun a b => a.1 < b.1) : (insertEntry k v l).Pairwise fun a b => a.1 < b.1 := by
  induction l with
  | nil => simp [insertEntry]
  | cons a l ih =>
    obtain ⟨k', v'⟩ := a
    obtain ⟨hhead, htail⟩ := List.pairwise_cons.mp h
    simp only [insertEntry]
    split_ifs with h1 h2
    · -- smaller than the first key, so smaller than all
      refine List.pairwise_cons.mpr ⟨fun e he => ?_, h⟩
      rcases List.mem_cons.mp he with rfl | he
      · exact h1
      · exact lt_trans h1 (hhead e he)
    · subst h2
      exact List.pairwise_cons.mpr ⟨hhead, htail⟩
    · refine List.pairwise_cons.mpr ⟨fun e he => ?_, ih htail⟩
      rcases mem_insertEntry he with rfl | he
      · -- neither smaller nor equal, so larger
        exact lt_of_le_of_ne (not_lt.mp h1) (Ne.symm h2)
      · exact hhead e he

/-- Bind `k` to `v`. -/
def insert (m : SortedMap κ β) (k : κ) (v : β) : SortedMap κ β :=
  ⟨insertEntry k v m.entries, sorted_insertEntry k v m.sorted⟩

/-- The value bound to `k`. -/
def get? (m : SortedMap κ β) (k : κ) : Option β := m.entries.lookup k

/-- The map built by binding the entries of a list in order. -/
def ofList (l : List (κ × β)) : SortedMap κ β := l.foldl (fun m e => m.insert e.1 e.2) empty

/-- A key above all others is appended. -/
theorem insertEntry_of_lt {k : κ} {v : β} {l : List (κ × β)} (h : ∀ e ∈ l, e.1 < k) :
    insertEntry k v l = l ++ [(k, v)] := by
  induction l with
  | nil => rfl
  | cons a l ih =>
    have ha : a.1 < k := h a (by simp)
    simp only [insertEntry]
    rw [if_neg (not_lt.mpr ha.le), if_neg ha.ne', ih fun e he => h e (List.mem_cons_of_mem _ he)]
    rfl

/-- Binding sorted entries one after the other appends them. -/
theorem foldl_insert_entries (l : List (κ × β)) (m : SortedMap κ β)
    (h : (m.entries ++ l).Pairwise fun a b => a.1 < b.1) :
    (l.foldl (fun m e => m.insert e.1 e.2) m).entries = m.entries ++ l := by
  induction l generalizing m with
  | nil => simp
  | cons e l ih =>
    have hlt : ∀ a ∈ m.entries, a.1 < e.1 := fun a ha =>
      (List.pairwise_append.mp h).2.2 a ha e (by simp)
    have hins : (m.insert e.1 e.2).entries = m.entries ++ [e] := insertEntry_of_lt hlt
    rw [List.foldl_cons, ih (m.insert e.1 e.2) (by rw [hins, List.append_assoc]; exact h), hins,
      List.append_assoc]
    rfl

/-- Rebuilding a map from its entries gives the map back. -/
@[simp] theorem ofList_entries (m : SortedMap κ β) : ofList m.entries = m := by
  apply ext
  have h := foldl_insert_entries m.entries empty (by simpa [empty] using m.sorted)
  simpa [ofList, empty] using h

/-- Bindings of different keys can be made in either order. -/
theorem insertEntry_comm {k₁ k₂ : κ} (h : k₁ ≠ k₂) (v₁ v₂ : β) {l : List (κ × β)} :
    insertEntry k₂ v₂ (insertEntry k₁ v₁ l) = insertEntry k₁ v₁ (insertEntry k₂ v₂ l) := by
  induction l with
  | nil => grind [insertEntry]
  | cons e l ih => grind [insertEntry]

/-- The order in which a list is bound does not matter where equal keys
    have equal values. -/
theorem foldl_insert_perm_of_agree {α : Type} (key : α → κ) (val : α → β) {l l' : List α}
    (hp : l.Perm l') (hagree : ∀ x ∈ l, ∀ y ∈ l, key x = key y → val x = val y)
    (m : SortedMap κ β) : l.foldl (fun m e => m.insert (key e) (val e)) m =
      l'.foldl (fun m e => m.insert (key e) (val e)) m := by
  refine hp.foldl_eq' (fun x hx y hy m => ?_) m
  by_cases hkey : key x = key y
  · rw [hkey, hagree x hx y hy hkey]
  · exact ext (insertEntry_comm hkey (val x) (val y))

/-- The order in which a list with distinct keys is bound does not matter. -/
theorem foldl_insert_perm {α : Type} (key : α → κ) (val : α → β) {l l' : List α} (hp : l.Perm l')
    (hkeys : (l.map key).Nodup) (m : SortedMap κ β) :
    l.foldl (fun m e => m.insert (key e) (val e)) m =
      l'.foldl (fun m e => m.insert (key e) (val e)) m := by
  apply foldl_insert_perm_of_agree key val hp
  intro x hx y hy hkey
  rw [List.inj_on_of_nodup_map hkeys hx hy hkey]

/-- Distinct entries of a map have distinct keys. -/
theorem nodup_keys (m : SortedMap κ β) : (m.entries.map Prod.fst).Nodup := by
  rw [List.nodup_iff_pairwise_ne, List.pairwise_map]
  exact m.sorted.imp fun h => h.ne

/-! ## Looking up -/

theorem lookup_insertEntry (k k' : κ) (v : β) (l : List (κ × β)) :
    (insertEntry k v l).lookup k' = if k' = k then some v else l.lookup k' := by
  induction l with
  | nil => grind [insertEntry]
  | cons e l ih =>
    obtain ⟨k₁, v₁⟩ := e
    rw [insertEntry]
    split_ifs <;> grind

/-- A binding is found, and hides no other. -/
theorem get?_insert (m : SortedMap κ β) (k k' : κ) (v : β) :
    (m.insert k v).get? k' = if k' = k then some v else m.get? k' :=
  lookup_insertEntry k k' v m.entries

@[simp] theorem get?_empty (k : κ) : (empty : SortedMap κ β).get? k = none := rfl

/-- Remove the binding of `k`. -/
def erase (m : SortedMap κ β) (k : κ) : SortedMap κ β :=
  ⟨m.entries.filter fun e => decide (e.1 ≠ k), m.sorted.filter _⟩

theorem lookup_filter_ne (k k' : κ) (l : List (κ × β)) :
    (l.filter fun e => decide (e.1 ≠ k)).lookup k' = if k' = k then none else l.lookup k' := by
  induction l with
  | nil => simp
  | cons e l ih => grind

theorem get?_erase (m : SortedMap κ β) (k k' : κ) :
    (m.erase k).get? k' = if k' = k then none else m.get? k' :=
  lookup_filter_ne k k' m.entries

theorem lookup_eq_some {l : List (κ × β)} (hkeys : (l.map Prod.fst).Nodup) {k : κ} {v : β} :
    l.lookup k = some v ↔ (k, v) ∈ l := by
  induction l with
  | nil => simp
  | cons e l ih =>
    obtain ⟨k', v'⟩ := e
    obtain ⟨hnot, hkeys⟩ := List.nodup_cons.mp hkeys
    by_cases hk : k = k'
    · subst hk
      have hmem : (k, v) ∉ l := fun h => hnot (List.mem_map.mpr ⟨(k, v), h, rfl⟩)
      simp [hmem, eq_comm]
    · rw [List.lookup_cons, beq_eq_false_iff_ne.mpr hk]
      simpa [hk] using ih hkeys

/-- The bindings are the entries. -/
theorem get?_eq_some {m : SortedMap κ β} {k : κ} {v : β} :
    m.get? k = some v ↔ (k, v) ∈ m.entries := lookup_eq_some m.nodup_keys

/-- Maps with the same bindings are equal. -/
theorem ext_get? {m m' : SortedMap κ β} (h : ∀ k, m.get? k = m'.get? k) : m = m' := by
  have hmem (e : κ × β) : e ∈ m.entries ↔ e ∈ m'.entries := by
    rw [← get?_eq_some, ← get?_eq_some, h]
  have hnodup (m : SortedMap κ β) : m.entries.Nodup := List.Nodup.of_map _ m.nodup_keys
  have hperm : m.entries.Perm m'.entries :=
    (List.perm_ext_iff_of_nodup (hnodup m) (hnodup m')).mpr hmem
  apply ext
  -- two sorted lists with the same members
  apply hperm.eq_of_pairwise _ m.sorted m'.sorted
  intro a b _ _ hab hba
  exact absurd hab (lt_asymm hba)

/-- Sorted entries are the entries of the map built from them. -/
theorem entries_ofList {l : List (κ × β)} (h : l.Pairwise fun a b => a.1 < b.1) :
    (ofList l).entries = l := by
  unfold ofList
  rw [foldl_insert_entries l empty h]
  rfl

/-- What is bound last is found first. -/
theorem get?_foldl_insert (l : List (κ × β)) (m : SortedMap κ β) (k : κ) :
    (l.foldl (fun m e => m.insert e.1 e.2) m).get? k =
      ((l.reverse.find? fun e => e.1 == k).map Prod.snd).or (m.get? k) := by
  induction l generalizing m with
  | nil => rfl
  | cons e l ih =>
    rw [List.foldl_cons, ih, get?_insert, List.reverse_cons, List.find?_append]
    cases l.reverse.find? fun e => e.1 == k with
    | some e' => rfl
    | none =>
      by_cases hk : k = e.1
      · simp [hk]
      · simp [hk, Ne.symm hk]

/-! ## Updating in place -/

/-- Rebind each entry for which `f` has a new value, in the order in which
    a loop ranges over the map. -/
def updateAll (f : κ → β → Option β) (order : List (κ × β)) (m : SortedMap κ β) : SortedMap κ β :=
  order.foldl (fun m e => match f e.1 e.2 with
    | some v => m.insert e.1 v
    | none => m) m

theorem get?_updateAll_of_not_mem {f : κ → β → Option β} {order : List (κ × β)} {k : κ}
    (h : k ∉ order.map Prod.fst) (m : SortedMap κ β) : (updateAll f order m).get? k = m.get? k := by
  induction order generalizing m with
  | nil => rfl
  | cons e order ih =>
    obtain ⟨hne, h⟩ : k ≠ e.1 ∧ k ∉ order.map Prod.fst := by simpa using h
    rw [updateAll, List.foldl_cons]
    refine (ih h _).trans ?_
    split
    · rw [get?_insert, if_neg hne]
    · rfl

/-- Whatever the order, each entry is rebound once. -/
theorem get?_updateAll {f : κ → β → Option β} {order : List (κ × β)} {m : SortedMap κ β}
    (h : order.Perm m.entries) (k : κ) :
    (updateAll f order m).get? k = (m.get? k).map fun v => (f k v).getD v := by
  have hkeys : (order.map Prod.fst).Nodup := (h.map Prod.fst).nodup_iff.mpr m.nodup_keys
  cases hk : m.get? k with
  | none =>
    -- no entry has the key, and the update adds none
    have hnot : k ∉ order.map Prod.fst := by
      intro hmem
      obtain ⟨e, he, rfl⟩ := List.mem_map.mp hmem
      rw [get?_eq_some.mpr (h.mem_iff.mp he)] at hk
      cases hk
    rw [get?_updateAll_of_not_mem hnot, hk]
    rfl
  | some v =>
    obtain ⟨before, after, hsplit⟩ := List.append_of_mem (h.mem_iff.mpr (get?_eq_some.mp hk))
    rw [hsplit, List.map_append, List.map_cons] at hkeys
    -- the key occurs once, so what is before and after its entry does not touch it
    obtain ⟨hbefore, hafter⟩ : k ∉ before.map Prod.fst ∧ k ∉ after.map Prod.fst := by
      grind [List.nodup_append]
    have hstep : updateAll f order m = updateAll f after
        (match f k v with | some v' => (updateAll f before m).insert k v' | none => updateAll f before m) := by
      rw [hsplit]
      simp only [updateAll, List.foldl_append, List.foldl_cons]
    rw [hstep, get?_updateAll_of_not_mem hafter]
    cases hf : f k v with
    | none => simpa [get?_updateAll_of_not_mem hbefore, hf] using hk
    | some v' => simp [get?_insert, hf]

end SortedMap

end Framework
