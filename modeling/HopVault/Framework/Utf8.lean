import Mathlib.Data.List.Lex
import Mathlib.Order.Basic
import Mathlib.Tactic.SplitIfs
import Mathlib.Tactic.ByContra

/-! # Byte strings and UTF-8

    Byte strings as lists of octets, and the UTF-8 scanning rules of a
    language whose strings are plain byte strings: a string is cut into
    runes from the left, an octet that starts no well-formed rune is a
    segment of its own, and *coercion* replaces every such octet by
    U+FFFD.

    Octets are compared through `toNat`, so that `omega` closes the
    range conditions. -/

namespace Framework

/-- A byte string. -/
abbrev Bytes : Type := List UInt8

/-- The UTF-8 octets of a literal. -/
def lit (s : String) : Bytes := s.toUTF8.data.toList

instance byteOrder : LinearOrder UInt8 where
  le_refl a := UInt8.le_refl a
  le_trans a b c := UInt8.le_trans
  le_antisymm a b := UInt8.le_antisymm
  le_total := UInt8.le_total
  lt_iff_le_not_ge a b := by
    simp only [UInt8.lt_iff_toNat_lt, UInt8.le_iff_toNat_le]; omega
  toDecidableLE := inferInstance
  toDecidableEq := inferInstance
  toDecidableLT := inferInstance

namespace Utf8

/-! ## Decoding one rune -/

/-- Continuation octet `80..BF`. -/
def isCont (x : Nat) : Bool := decide (0x80 ≤ x ∧ x ≤ 0xBF)

/-- Least second octet after the lead octet `x` of a three-octet rune. -/
def lo3 (x : Nat) : Nat := if x = 0xE0 then 0xA0 else 0x80

/-- Greatest second octet after the lead octet `x` of a three-octet rune
    (surrogates are excluded). -/
def hi3 (x : Nat) : Nat := if x = 0xED then 0x9F else 0xBF

/-- Least second octet after the lead octet `x` of a four-octet rune. -/
def lo4 (x : Nat) : Nat := if x = 0xF0 then 0x90 else 0x80

/-- Greatest second octet after the lead octet `x` of a four-octet rune. -/
def hi4 (x : Nat) : Nat := if x = 0xF4 then 0x8F else 0xBF

/-- The rune at the front of a byte string and its length in octets, or
    `none` when no well-formed rune starts there. -/
def decodeRune : Bytes → Option (Nat × Nat)
  | [] => none
  | b0 :: t =>
    let x := b0.toNat
    if x < 0x80 then some (x, 1)
    else if 0xC2 ≤ x ∧ x ≤ 0xDF then
      match t with
      | b1 :: _ =>
        if isCont b1.toNat then some ((x - 0xC0) * 64 + (b1.toNat - 0x80), 2) else none
      | _ => none
    else if 0xE0 ≤ x ∧ x ≤ 0xEF then
      match t with
      | b1 :: b2 :: _ =>
        if lo3 x ≤ b1.toNat ∧ b1.toNat ≤ hi3 x ∧ isCont b2.toNat then
          some ((x - 0xE0) * 4096 + (b1.toNat - 0x80) * 64 + (b2.toNat - 0x80), 3)
        else none
      | _ => none
    else if 0xF0 ≤ x ∧ x ≤ 0xF4 then
      match t with
      | b1 :: b2 :: b3 :: _ =>
        if lo4 x ≤ b1.toNat ∧ b1.toNat ≤ hi4 x ∧ isCont b2.toNat ∧ isCont b3.toNat then
          some ((x - 0xF0) * 262144 + (b1.toNat - 0x80) * 4096 + (b2.toNat - 0x80) * 64
            + (b3.toNat - 0x80), 4)
        else none
      | _ => none
    else none

/-- The replacement character U+FFFD. -/
def replacement : Bytes := [0xEF, 0xBF, 0xBD]

/-- The octets of a code point; surrogates and values beyond U+10FFFF are
    written as U+FFFD. -/
def encodeRune (c : Nat) : Bytes :=
  if c < 0x80 then [UInt8.ofNat c]
  else if c < 0x800 then [UInt8.ofNat (0xC0 + c / 64), UInt8.ofNat (0x80 + c % 64)]
  else if (0xD800 ≤ c ∧ c ≤ 0xDFFF) ∨ 0x10FFFF < c then replacement
  else if c < 0x10000 then
    [UInt8.ofNat (0xE0 + c / 4096), UInt8.ofNat (0x80 + c / 64 % 64), UInt8.ofNat (0x80 + c % 64)]
  else
    [UInt8.ofNat (0xF0 + c / 262144), UInt8.ofNat (0x80 + c / 4096 % 64),
      UInt8.ofNat (0x80 + c / 64 % 64), UInt8.ofNat (0x80 + c % 64)]

/-- A rune read from a byte string lies in it and has one to four octets. -/
theorem decodeRune_size {s : Bytes} {c n : Nat} (h : decodeRune s = some (c, n)) :
    1 ≤ n ∧ n ≤ s.length := by
  unfold decodeRune at h
  split at h
  · simp at h
  · simp only at h
    repeat' split at h
    all_goals simp only [Option.some.injEq, Prod.mk.injEq, reduceCtorEq] at h
    all_goals
      obtain ⟨-, rfl⟩ := h
      simp

/-- Reading a rune looks at no octet beyond it. -/
theorem decodeRune_append {s : Bytes} {c n : Nat} (h : decodeRune s = some (c, n)) (r : Bytes) :
    decodeRune (s.take n ++ r) = some (c, n) := by
  match s with
  | [] => simp [decodeRune] at h
  | b0 :: t =>
    simp only [decodeRune] at h
    -- by the first octet: one, two, three or four octets in all
    split_ifs at h with h1 h2 h3 h4
    · simp only [Option.some.injEq, Prod.mk.injEq] at h
      obtain ⟨rfl, rfl⟩ := h
      simp [decodeRune, h1]
    · split at h
      · split_ifs at h with hc
        simp only [Option.some.injEq, Prod.mk.injEq] at h
        obtain ⟨rfl, rfl⟩ := h
        simp only [List.take_succ_cons, List.take_zero, List.cons_append, List.nil_append,
          decodeRune, if_neg h1, if_pos h2, if_pos hc]
      · simp at h
    · split at h
      · split_ifs at h with hc
        simp only [Option.some.injEq, Prod.mk.injEq] at h
        obtain ⟨rfl, rfl⟩ := h
        simp only [List.take_succ_cons, List.take_zero, List.cons_append, List.nil_append,
          decodeRune, if_neg h1, if_neg h2, if_pos h3, if_pos hc]
      · simp at h
    · split at h
      · split_ifs at h with hc
        simp only [Option.some.injEq, Prod.mk.injEq] at h
        obtain ⟨rfl, rfl⟩ := h
        simp only [List.take_succ_cons, List.take_zero, List.cons_append, List.nil_append,
          decodeRune, if_neg h1, if_neg h2, if_neg h3, if_pos h4, if_pos hc]
      · simp at h

theorem ofNat_eq {b : UInt8} {n : Nat} (h : n = b.toNat) : UInt8.ofNat n = b := by
  subst h
  exact UInt8.ofNat_toNat

/-- Encoding a decoded rune gives its octets back. -/
theorem encodeRune_of_decodeRune {s : Bytes} {c n : Nat} (h : decodeRune s = some (c, n)) :
    encodeRune c = s.take n := by
  match s with
  | [] => simp [decodeRune] at h
  | b0 :: t =>
    simp only [decodeRune] at h
    -- the code point is computed from the octets; each length has its range of code points
    split_ifs at h with h1 h2 h3 h4
    · simp only [Option.some.injEq, Prod.mk.injEq] at h
      obtain ⟨rfl, rfl⟩ := h
      simp [encodeRune, h1]
    · split at h
      next b1 _ =>
        split_ifs at h with hc
        simp only [isCont, decide_eq_true_eq] at hc
        simp only [Option.some.injEq, Prod.mk.injEq] at h
        obtain ⟨rfl, rfl⟩ := h
        unfold encodeRune
        rw [if_neg (by omega), if_pos (by omega), ofNat_eq (b := b0) (by omega),
          ofNat_eq (b := b1) (by omega)]
        rfl
      · simp at h
    · split at h
      next b1 b2 _ =>
        split_ifs at h with hc
        simp only [isCont, lo3, hi3, decide_eq_true_eq] at hc
        simp only [Option.some.injEq, Prod.mk.injEq] at h
        obtain ⟨rfl, rfl⟩ := h
        unfold encodeRune
        -- after E0 the second octet is at least A0, or the code would fit two octets
        have hlo : b0.toNat = 0xE0 → 0xA0 ≤ b1.toNat := by
          intro h0; rw [if_pos h0] at hc; exact hc.1
        -- after ED it is at most 9F, or the code would be a surrogate
        have hhi : b0.toNat = 0xED → b1.toNat ≤ 0x9F := by
          intro h0; rw [if_pos h0] at hc; exact hc.2.1
        have hb : 0x80 ≤ b1.toNat ∧ b1.toNat ≤ 0xBF := by
          split_ifs at hc <;> omega
        rw [if_neg (by omega), if_neg (by omega), if_neg (by omega), if_pos (by omega),
          ofNat_eq (b := b0) (by omega), ofNat_eq (b := b1) (by omega),
          ofNat_eq (b := b2) (by omega)]
        rfl
      · simp at h
    · split at h
      next b1 b2 b3 _ =>
        split_ifs at h with hc
        simp only [isCont, lo4, hi4, decide_eq_true_eq] at hc
        simp only [Option.some.injEq, Prod.mk.injEq] at h
        obtain ⟨rfl, rfl⟩ := h
        unfold encodeRune
        -- after F0 the second octet is at least 90, or the code would fit three octets
        have hlo : b0.toNat = 0xF0 → 0x90 ≤ b1.toNat := by
          intro h0; rw [if_pos h0] at hc; exact hc.1
        -- after F4 it is at most 8F, or the code would exceed U+10FFFF
        have hhi : b0.toNat = 0xF4 → b1.toNat ≤ 0x8F := by
          intro h0; rw [if_pos h0] at hc; exact hc.2.1
        have hb : 0x80 ≤ b1.toNat ∧ b1.toNat ≤ 0xBF := by
          split_ifs at hc <;> omega
        rw [if_neg (by omega), if_neg (by omega), if_neg (by omega), if_neg (by omega),
          ofNat_eq (b := b0) (by omega), ofNat_eq (b := b1) (by omega),
          ofNat_eq (b := b2) (by omega), ofNat_eq (b := b3) (by omega)]
        rfl
      · simp at h

/-- An octet below `80` is a rune by itself. -/
theorem decodeRune_ascii {b : UInt8} (h : b.toNat < 0x80) (t : Bytes) :
    decodeRune (b :: t) = some (b.toNat, 1) := by
  simp [decodeRune, h]

/-! ## Cutting a string into runes -/

/-- A segment of a byte string: a rune with its octets, or an octet that
    starts none. -/
inductive Seg where
  | rune (code : Nat) (octets : Bytes)
  | bad (b : UInt8)
  deriving DecidableEq, Repr

namespace Seg

/-- The octets a segment was cut from. -/
def octets : Seg → Bytes
  | rune _ o => o
  | bad b => [b]

/-- The octets coercion to well-formed UTF-8 puts in its place. -/
def coerced : Seg → Bytes
  | rune _ o => o
  | bad _ => replacement

/-- The code point a scan reports. -/
def code : Seg → Nat
  | rune c _ => c
  | bad _ => 0xFFFD

/-- A segment as cutting produces it: reading its octets gives it back,
    whatever follows. -/
def Proper : Seg → Prop
  | rune c o => o ≠ [] ∧ ∀ r, decodeRune (o ++ r) = some (c, o.length)
  | bad b => 0x80 ≤ b.toNat

end Seg

/-- `segs` with the number of segments bounded. -/
def segsAux : Nat → Bytes → List Seg
  | 0, _ => []
  | _, [] => []
  | n + 1, b :: t =>
    match decodeRune (b :: t) with
    | some (c, k) => .rune c ((b :: t).take k) :: segsAux n ((b :: t).drop k)
    | none => .bad b :: segsAux n t

/-- A byte string cut into runes from the left. -/
def segs (s : Bytes) : List Seg := segsAux s.length s

/-- Coercion to well-formed UTF-8. -/
def toValid (s : Bytes) : Bytes := (segs s).flatMap Seg.coerced

/-- A byte string is well-formed UTF-8 when coercion leaves it alone. -/
def Valid (s : Bytes) : Prop := toValid s = s

instance (s : Bytes) : Decidable (Valid s) := inferInstanceAs (Decidable (toValid s = s))

/-- A bound that covers the string does not cut it short. -/
theorem segsAux_of_le : ∀ {n : Nat} {s : Bytes}, s.length ≤ n → segsAux n s = segs s := by
  suffices h : ∀ (m n : Nat) (s : Bytes), s.length ≤ m → s.length ≤ n →
      segsAux m s = segsAux n s from fun {n s} hn => h n s.length s hn le_rfl
  intro m
  induction m with
  | zero =>
    intro n s hm _
    have hs : s = [] := List.length_eq_zero_iff.mp (by omega)
    subst hs
    cases n <;> rfl
  | succ m ih =>
    intro n s hm hn
    -- both fuels cover the text, so the two runs cut off the same rune
    match s, n with
    | [], 0 => rfl
    | [], _ + 1 => rfl
    | b :: t, n + 1 =>
      simp only [segsAux]
      cases hd : decodeRune (b :: t) with
      | none => simp only [ih n t (by simpa using hm) (by simpa using hn)]
      | some ck =>
        obtain ⟨c, k⟩ := ck
        have hk := decodeRune_size hd
        have hlen : ((b :: t).drop k).length = (b :: t).length - k := List.length_drop
        simp only [ih n ((b :: t).drop k) (by omega) (by omega)]

@[simp] theorem segs_nil : segs [] = [] := rfl

/-- Cutting off a rune. -/
theorem segs_of_rune {s : Bytes} {c k : Nat} (h : decodeRune s = some (c, k)) :
    segs s = .rune c (s.take k) :: segs (s.drop k) := by
  match s with
  | [] => simp [decodeRune] at h
  | b :: t =>
    have hk := decodeRune_size h
    have hlen : ((b :: t).drop k).length = (b :: t).length - k := List.length_drop
    have hle : ((b :: t).drop k).length ≤ t.length := by simp at hlen hk ⊢; omega
    show segsAux (t.length + 1) (b :: t) = _
    simp only [segsAux, h, segsAux_of_le hle]

/-- Cutting off an octet that starts no rune. -/
theorem segs_of_bad {b : UInt8} {t : Bytes} (h : decodeRune (b :: t) = none) :
    segs (b :: t) = .bad b :: segs t := by
  show segsAux (t.length + 1) (b :: t) = _
  simp only [segsAux, h]
  rfl

/-- Induction along the segments of a string. -/
theorem segs_induction {P : Bytes → Prop} (nil : P [])
    (rune : ∀ s c k, decodeRune s = some (c, k) → P (s.drop k) → P s)
    (bad : ∀ b t, decodeRune (b :: t) = none → P t → P (b :: t)) (s : Bytes) : P s := by
  induction hn : s.length using Nat.strong_induction_on generalizing s with
  | _ n ih =>
    match s with
    | [] => exact nil
    | b :: t =>
      subst hn
      cases hd : decodeRune (b :: t) with
      | none => exact bad b t hd (ih t.length (by simp) t rfl)
      | some ck =>
        obtain ⟨c, k⟩ := ck
        have hk := decodeRune_size hd
        exact rune _ c k hd (ih _ (by rw [List.length_drop]; omega) _ rfl)

/-- Cutting loses no octet. -/
theorem segs_flatMap_octets (s : Bytes) : (segs s).flatMap Seg.octets = s := by
  induction s using segs_induction with
  | nil => rfl
  | rune s c k h ih =>
    rw [segs_of_rune h, List.flatMap_cons, ih]
    exact List.take_append_drop k s
  | bad b t h ih => rw [segs_of_bad h, List.flatMap_cons, ih]; rfl

/-- Every segment of a string is proper. -/
theorem segs_proper (s : Bytes) : ∀ g ∈ segs s, g.Proper := by
  induction s using segs_induction with
  | nil => simp
  | rune s c k h ih =>
    have hk := decodeRune_size h
    -- the octets of a rune are those that were read
    have hlen : (s.take k).length = k := List.length_take_of_le hk.2
    rw [segs_of_rune h]
    intro g hg
    rcases List.mem_cons.mp hg with rfl | hg
    · refine ⟨?_, fun r => ?_⟩
      · intro h0
        rw [h0] at hlen
        simp at hlen
        omega
      · rw [hlen]; exact decodeRune_append h r
    · exact ih g hg
  | bad b t h ih =>
    rw [segs_of_bad h]
    intro g hg
    rcases List.mem_cons.mp hg with rfl | hg
    · -- an octet that starts no rune is not ASCII
      show 0x80 ≤ b.toNat
      by_contra hlt
      rw [decodeRune_ascii (by omega)] at h
      simp at h
    · exact ih g hg

/-- Runes put one after the other are cut where they were joined. -/
theorem segs_flatMap_of_proper (l : List Seg) (h : ∀ g ∈ l, g.Proper ∧ ∃ c o, g = .rune c o) :
    segs (l.flatMap Seg.octets) = l := by
  induction l with
  | nil => rfl
  | cons g l ih =>
    obtain ⟨hp, c, o, rfl⟩ := h g (by simp)
    have hd := hp.2 (l.flatMap Seg.octets)
    rw [List.flatMap_cons]
    show segs (o ++ l.flatMap Seg.octets) = _
    rw [segs_of_rune hd, List.take_left, List.drop_left,
      ih fun g hg => h g (List.mem_cons_of_mem _ hg)]

/-- The segment coercion puts in the place of a segment. -/
def Seg.coerce : Seg → Seg
  | .rune c o => .rune c o
  | .bad _ => .rune 0xFFFD replacement

theorem decodeRune_replacement (r : Bytes) :
    decodeRune (replacement ++ r) = some (0xFFFD, 3) := by
  simp [replacement, decodeRune, lo3, hi3, isCont]

theorem segs_toValid (s : Bytes) : segs (toValid s) = (segs s).map Seg.coerce := by
  have hco : toValid s = ((segs s).map Seg.coerce).flatMap Seg.octets := by
    unfold toValid
    rw [List.flatMap_map]
    congr 1
    funext g
    cases g <;> rfl
  rw [hco]
  -- the coerced segments are proper runes, so cutting finds them again
  apply segs_flatMap_of_proper
  intro g hg
  obtain ⟨g', hg', rfl⟩ := List.mem_map.mp hg
  cases g' with
  | rune c o => exact ⟨segs_proper s _ hg', c, o, rfl⟩
  | bad b =>
    exact ⟨⟨by simp [replacement], fun r => decodeRune_replacement r⟩, _, _, rfl⟩

/-- Coercion is idempotent: its result is well formed. -/
@[simp] theorem toValid_toValid (s : Bytes) : toValid (toValid s) = toValid s := by
  show (segs (toValid s)).flatMap Seg.coerced = _
  rw [segs_toValid, List.flatMap_map]
  unfold toValid
  congr 1
  funext g
  cases g <;> rfl

/-- The runes of an ASCII string are its octets. -/
theorem segs_ascii {s : Bytes} (h : ∀ b ∈ s, b.toNat < 0x80) :
    segs s = s.map fun b => .rune b.toNat [b] := by
  induction s with
  | nil => rfl
  | cons b t ih =>
    rw [segs_of_rune (decodeRune_ascii (h b (by simp)) t), List.map_cons]
    have ht := ih fun x hx => h x (List.mem_cons_of_mem _ hx)
    simpa using ht

/-- An ASCII string is well formed. -/
theorem toValid_ascii {s : Bytes} (h : ∀ b ∈ s, b.toNat < 0x80) : toValid s = s := by
  rw [toValid, segs_ascii h, List.flatMap_map]
  simp [Seg.coerced]

/-- Coercion empties no string. -/
@[simp] theorem toValid_eq_nil {s : Bytes} : toValid s = [] ↔ s = [] := by
  constructor
  · intro h
    have hseg : segs (toValid s) = [] := by rw [h]; rfl
    rw [segs_toValid, List.map_eq_nil_iff] at hseg
    rw [← segs_flatMap_octets s, hseg]
    rfl
  · rintro rfl; rfl

/-! ## Well-formed strings -/

theorem valid_nil : Valid [] := rfl

theorem valid_ascii {s : Bytes} (h : ∀ b ∈ s, b.toNat < 0x80) : Valid s := toValid_ascii h

/-- The same as a test, for the constants of a program. -/
theorem valid_lit {s : Bytes} (h : (s.all fun b => decide (b < 0x80)) = true) : Valid s := by
  apply valid_ascii
  intro b hb
  have hlt := of_decide_eq_true (List.all_eq_true.mp h b hb)
  exact UInt8.lt_iff_toNat_lt.mp hlt

/-- A rune that a string starts with is cut off whatever follows. -/
theorem decodeRune_append_right {s : Bytes} {c k : Nat} (h : decodeRune s = some (c, k))
    (r : Bytes) : decodeRune (s ++ r) = some (c, k) := by
  have happend := decodeRune_append h (s.drop k ++ r)
  rwa [← List.append_assoc, List.take_append_drop] at happend

/-- Coercion leaves a well-formed front alone. -/
theorem toValid_append {a : Bytes} (ha : Valid a) (b : Bytes) :
    toValid (a ++ b) = a ++ toValid b := by
  induction a using segs_induction with
  | nil => rfl
  | rune a c k h ih =>
    have hk := decodeRune_size h
    have hcut (s : Bytes) (hs : decodeRune s = some (c, k)) :
        toValid s = s.take k ++ toValid (s.drop k) := by
      rw [toValid, segs_of_rune hs]
      rfl
    have hrest : Valid (a.drop k) := by
      have hself : toValid a = a := ha
      rw [hcut a h] at hself
      exact List.append_cancel_left (hself.trans (List.take_append_drop k a).symm)
    rw [hcut _ (decodeRune_append_right h b), List.take_append_of_le_length hk.2,
      List.drop_append_of_le_length hk.2, ih hrest, ← List.append_assoc, List.take_append_drop]
  | bad x t h ih =>
    -- the octet would have been replaced
    have hself : toValid (x :: t) = x :: t := ha
    rw [toValid, segs_of_bad h, List.flatMap_cons] at hself
    obtain ⟨r, hr⟩ : ∃ r, x :: t = replacement ++ r := ⟨_, hself.symm⟩
    rw [hr, decodeRune_replacement] at h
    cases h

theorem Valid.append {a b : Bytes} (ha : Valid a) (hb : Valid b) : Valid (a ++ b) := by
  have hself : toValid b = b := hb
  show toValid (a ++ b) = a ++ b
  rw [toValid_append ha, hself]

theorem Valid.cons {b : UInt8} {s : Bytes} (hb : b.toNat < 0x80) (hs : Valid s) : Valid (b :: s) :=
  (valid_ascii (s := [b]) (by simpa using hb)).append hs

/-- A string that is cut into one rune is well formed. -/
theorem valid_of_decodeRune {s : Bytes} {c : Nat} (h : decodeRune s = some (c, s.length)) :
    Valid s := by
  show toValid s = s
  rw [toValid, segs_of_rune h, List.take_length, List.drop_length]
  exact List.append_nil s

theorem toNat_ofNat_of_lt {n : Nat} (h : n < 256) : (UInt8.ofNat n).toNat = n :=
  UInt8.toNat_ofNat_of_lt' (by simpa using h)

/-- Reading an encoded code point gives it back; surrogates and values that
    are too large have been replaced. -/
theorem decodeRune_encodeRune {c : Nat} (hmax : c ≤ 0x10FFFF) (hsurrogate : c < 0xD800 ∨ 0xDFFF < c)
    (r : Bytes) : decodeRune (encodeRune c ++ r) = some (c, (encodeRune c).length) := by
  unfold encodeRune
  -- the four lengths, and a surrogate, which hsurrogate excludes
  split_ifs with h1 h2 h3 h4
  · have hb : (UInt8.ofNat c).toNat = c := toNat_ofNat_of_lt (by omega)
    simp [decodeRune, hb, h1]
  · have hb : (UInt8.ofNat (0xC0 + c / 64)).toNat = 0xC0 + c / 64 := toNat_ofNat_of_lt (by omega)
    have hb₁ : (UInt8.ofNat (0x80 + c % 64)).toNat = 0x80 + c % 64 := toNat_ofNat_of_lt (by omega)
    have hcont : isCont (0x80 + c % 64) = true := by
      simp only [isCont, decide_eq_true_eq]
      omega
    simp only [List.cons_append, List.nil_append, decodeRune, hb, hb₁, hcont, if_true]
    rw [if_neg (by omega), if_pos (by omega), Option.some.injEq, Prod.mk.injEq]
    exact ⟨by omega, rfl⟩
  · omega
  · have hb : (UInt8.ofNat (0xE0 + c / 4096)).toNat = 0xE0 + c / 4096 :=
      toNat_ofNat_of_lt (by omega)
    have hb₁ : (UInt8.ofNat (0x80 + c / 64 % 64)).toNat = 0x80 + c / 64 % 64 :=
      toNat_ofNat_of_lt (by omega)
    have hb₂ : (UInt8.ofNat (0x80 + c % 64)).toNat = 0x80 + c % 64 := toNat_ofNat_of_lt (by omega)
    have hcont : lo3 (0xE0 + c / 4096) ≤ 0x80 + c / 64 % 64 ∧
        0x80 + c / 64 % 64 ≤ hi3 (0xE0 + c / 4096) ∧ isCont (0x80 + c % 64) = true := by
      simp only [isCont, lo3, hi3, decide_eq_true_eq]
      split_ifs <;> omega
    simp only [List.cons_append, List.nil_append, decodeRune, hb, hb₁, hb₂]
    rw [if_neg (by omega), if_neg (by omega), if_pos (by omega), if_pos hcont, Option.some.injEq,
      Prod.mk.injEq]
    exact ⟨by omega, rfl⟩
  · have hb : (UInt8.ofNat (0xF0 + c / 262144)).toNat = 0xF0 + c / 262144 :=
      toNat_ofNat_of_lt (by omega)
    have hb₁ : (UInt8.ofNat (0x80 + c / 4096 % 64)).toNat = 0x80 + c / 4096 % 64 :=
      toNat_ofNat_of_lt (by omega)
    have hb₂ : (UInt8.ofNat (0x80 + c / 64 % 64)).toNat = 0x80 + c / 64 % 64 :=
      toNat_ofNat_of_lt (by omega)
    have hb₃ : (UInt8.ofNat (0x80 + c % 64)).toNat = 0x80 + c % 64 := toNat_ofNat_of_lt (by omega)
    have hcont : lo4 (0xF0 + c / 262144) ≤ 0x80 + c / 4096 % 64 ∧
        0x80 + c / 4096 % 64 ≤ hi4 (0xF0 + c / 262144) ∧ isCont (0x80 + c / 64 % 64) = true ∧
        isCont (0x80 + c % 64) = true := by
      simp only [isCont, lo4, hi4, decide_eq_true_eq]
      split_ifs <;> omega
    simp only [List.cons_append, List.nil_append, decodeRune, hb, hb₁, hb₂, hb₃]
    rw [if_neg (by omega), if_neg (by omega), if_neg (by omega), if_pos (by omega), if_pos hcont,
      Option.some.injEq, Prod.mk.injEq]
    exact ⟨by omega, rfl⟩

/-- The octets of a character beyond ASCII are beyond ASCII. -/
theorem encodeRune_high {c : Nat} (hc : 0x80 ≤ c) : ∀ b ∈ encodeRune c, 0x80 ≤ b.toNat := by
  intro b hb
  unfold encodeRune at hb
  rw [if_neg (by omega)] at hb
  split_ifs at hb with h2 h3 h4
  · simp only [List.mem_cons, List.not_mem_nil, or_false] at hb
    rcases hb with rfl | rfl <;> rw [toNat_ofNat_of_lt (by omega)] <;> omega
  · simp only [replacement, List.mem_cons, List.not_mem_nil, or_false] at hb
    rcases hb with rfl | rfl | rfl <;> decide
  · simp only [List.mem_cons, List.not_mem_nil, or_false] at hb
    rcases hb with rfl | rfl | rfl <;> rw [toNat_ofNat_of_lt (by omega)] <;> omega
  · simp only [List.mem_cons, List.not_mem_nil, or_false] at hb
    rcases hb with rfl | rfl | rfl | rfl <;> rw [toNat_ofNat_of_lt (by omega)] <;> omega

theorem valid_replacement : Valid replacement := valid_of_decodeRune (decodeRune_replacement [])

theorem valid_encodeRune (c : Nat) : Valid (encodeRune c) := by
  by_cases h : c ≤ 0x10FFFF ∧ (c < 0xD800 ∨ 0xDFFF < c)
  · have hread := decodeRune_encodeRune h.1 h.2 []
    rw [List.append_nil] at hread
    exact valid_of_decodeRune hread
  · have hreplaced : encodeRune c = replacement := by
      unfold encodeRune
      rw [if_neg (by omega), if_neg (by omega), if_pos (by omega)]
    rw [hreplaced]
    exact valid_replacement

/-! ## Counting ASCII octets -/

/-- The number of ASCII octets of a string. -/
def asciiCount (s : Bytes) : Nat := s.countP fun b => decide (b.toNat < 0x80)

@[simp] theorem asciiCount_nil : asciiCount [] = 0 := rfl

@[simp] theorem asciiCount_append (a b : Bytes) :
    asciiCount (a ++ b) = asciiCount a + asciiCount b := List.countP_append

theorem asciiCount_le_length (s : Bytes) : asciiCount s ≤ s.length := List.countP_le_length

/-- A code point is at most one ASCII octet. -/
theorem asciiCount_encodeRune_le (c : Nat) : asciiCount (encodeRune c) ≤ 1 := by
  unfold encodeRune
  split_ifs with h1 h2 h3 h4
  · exact asciiCount_le_length _
  -- all octets of the longer encodings are 80 or above
  all_goals
    refine le_of_eq_of_le (List.countP_eq_zero.mpr fun b hb => ?_) (Nat.zero_le 1)
    simp only [decide_eq_true_eq, Nat.not_lt]
  · rcases List.mem_pair.mp hb with rfl | rfl <;> rw [toNat_ofNat_of_lt (by omega)] <;> omega
  · have hall : ∀ b ∈ replacement, 0x80 ≤ b.toNat := by simp [replacement]
    exact hall b hb
  · simp only [List.mem_cons, List.not_mem_nil, or_false] at hb
    rcases hb with rfl | rfl | rfl <;> rw [toNat_ofNat_of_lt (by omega)] <;> omega
  · have hc : c ≤ 0x10FFFF := by omega
    simp only [List.mem_cons, List.not_mem_nil, or_false] at hb
    rcases hb with rfl | rfl | rfl | rfl <;> rw [toNat_ofNat_of_lt (by omega)] <;> omega

end Utf8

end Framework
