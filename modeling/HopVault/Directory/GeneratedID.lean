import HopVault.Directory.LiveNode
import HopVault.Directory.Uuid
import Mathlib.Data.Finset.Card
import Mathlib.Data.Fintype.Prod

/-! # Generated node IDs

    What `GenerateNodeID` of `shared/node/registration.go` formats, against
    what `isUUID` of `directory-server/main.go` accepts. Six bits of the
    random octets are overwritten by the version and the variant; all others
    can be read off the ID. -/

namespace HopVault.Directory

open Framework Framework.Utf8

/-! ## Hexadecimal digits -/

theorem hexDigit_injective {m n : Nat} (hm : m < 16) (hn : n < 16)
    (h : hexDigit m = hexDigit n) : m = n := by
  have hall : ∀ m n : Fin 16, hexDigit m = hexDigit n → m = n := by decide
  have heq := hall ⟨m, hm⟩ ⟨n, hn⟩ h
  exact Fin.val_eq_of_eq heq

theorem hexDigit_isHex {n : Nat} (h : n < 16) : HexDigit (hexDigit n) := by
  have hall : ∀ n : Fin 16, isHexDigit (hexDigit n) = true := by decide
  apply isHexDigit_iff.mp
  exact hall ⟨n, h⟩

theorem hex_cons (b : UInt8) (bytes : Bytes) :
    hex (b :: bytes) = hexDigit (b.toNat / 16) :: hexDigit (b.toNat % 16) :: hex bytes := rfl

@[simp] theorem length_hex (bytes : Bytes) : (hex bytes).length = 2 * bytes.length := by
  induction bytes with
  | nil => rfl
  | cons b bytes ih =>
    rw [hex_cons, List.length_cons, List.length_cons, ih, List.length_cons]
    omega

theorem isHex_of_mem_hex {bytes : Bytes} {b : UInt8} (h : b ∈ hex bytes) : HexDigit b := by
  obtain ⟨x, -, hx⟩ := List.mem_flatMap.mp h
  have hlt := x.toNat_lt
  rcases List.mem_cons.mp hx with rfl | hx
  · apply hexDigit_isHex
    omega
  · rw [List.mem_singleton.mp hx]
    apply hexDigit_isHex
    omega

/-- The octets can be read off their digits, two at a time. -/
theorem hex_injective {a b : Bytes} (h : hex a = hex b) : a = b := by
  -- induction on the octets: the first two digits are those of the first octet
  induction a generalizing b with
  | nil =>
    cases b with
    | nil => rfl
    | cons y b => cases h
  | cons x a ih =>
    cases b with
    | nil => cases h
    | cons y b =>
      rw [hex_cons, hex_cons] at h
      obtain ⟨hhigh, h⟩ := List.cons_eq_cons.mp h
      obtain ⟨hlow, hrest⟩ := List.cons_eq_cons.mp h
      have hx := x.toNat_lt
      have hy := y.toNat_lt
      have hhigh := hexDigit_injective (by omega) (by omega) hhigh
      have hlow := hexDigit_injective (by omega) (by omega) hlow
      have hxy : x = y := by
        rw [← UInt8.toNat_inj]
        omega
      rw [hxy, ih hrest]

/-! ## The format -/

/-- `%0Nx` of a byte slice: zeros in front up to the width. -/
def zeroPaddedHex (width : Nat) (bytes : Bytes) : Bytes :=
  List.replicate (width - 2 * bytes.length) 48 ++ hex bytes

/-- What is put between the hyphens. -/
def hyphenated (p q r s t : Bytes) : Bytes :=
  p ++ lit "-" ++ q ++ lit "-" ++ r ++ lit "-" ++ s ++ lit "-" ++ t

/-- The random octets with the version and the variant. -/
def stamp (b : Bytes) : Bytes :=
  (b.set 6 ((b.getD 6 0 &&& 0x0f) ||| 0x40)).set 8 ((b.getD 8 0 &&& 0x3f) ||| 0x80)

@[simp] theorem length_stamp (b : Bytes) : (stamp b).length = b.length := by simp [stamp]

theorem generateNodeID_eq (b : Bytes) :
    generateNodeID b = hyphenated (hex ((stamp b).take 4)) (hex (((stamp b).drop 4).take 2))
      (hex (((stamp b).drop 6).take 2)) (hex (((stamp b).drop 8).take 2))
      (hex ((stamp b).drop 10)) := rfl

/-- Each slice fills its width, so that no zero is put in front. -/
theorem generateNodeID_padded {b : Bytes} (h : b.length = 16) :
    generateNodeID b = hyphenated (zeroPaddedHex 8 ((stamp b).take 4))
      (zeroPaddedHex 4 (((stamp b).drop 4).take 2)) (zeroPaddedHex 4 (((stamp b).drop 6).take 2))
      (zeroPaddedHex 4 (((stamp b).drop 8).take 2)) (zeroPaddedHex 12 ((stamp b).drop 10)) := by
  rw [generateNodeID_eq]
  simp [zeroPaddedHex, h]

section Parts

variable {p q r s t : Bytes}

/-- Digits of the right numbers between hyphens are a UUID. -/
theorem uuidGrammar_hyphenated (hp : p.length = 8) (hq : q.length = 4) (hr : r.length = 4)
    (hs : s.length = 4) (ht : t.length = 12)
    (hdigits : ∀ b ∈ p ++ q ++ r ++ s ++ t, HexDigit b) : UuidGrammar (hyphenated p q r s t) := by
  have hhyphen : lit "-" = [45] := by decide
  have hoctet : ∀ i b, (hyphenated p q r s t)[i]? = some b →
      HyphenAt i ∧ b = 45 ∨ ¬HyphenAt i ∧ HexDigit b := by
    intro i b hb
    have hdash {k : Nat} (hi : k = 0 → HyphenAt i) (hk : [45][k]? = some b) :
        HyphenAt i ∧ b = 45 ∨ ¬HyphenAt i ∧ HexDigit b := by
      obtain ⟨hlt, hget⟩ := List.getElem?_eq_some_iff.mp hk
      have hzero : k = 0 := by simpa using hlt
      subst hzero
      exact .inl ⟨hi rfl, hget.symm⟩
    have hpart {part : Bytes} {k n : Nat} (hlength : part.length = n)
        (hsub : ∀ b ∈ part, HexDigit b) (hi : k < n → ¬HyphenAt i) (hk : part[k]? = some b) :
        HyphenAt i ∧ b = 45 ∨ ¬HyphenAt i ∧ HexDigit b := by
      have hlt : k < n := by
        rw [← hlength]
        exact (List.getElem?_eq_some_iff.mp hk).1
      exact .inr ⟨hi hlt, hsub b (List.mem_of_getElem? hk)⟩
    unfold hyphenated at hb
    rw [hhyphen] at hb
    simp only [List.getElem?_append, List.length_append, List.length_singleton,
      hp, hq, hr, hs] at hb
    -- the part of the string that the position lies in
    split_ifs at hb
    · exact hpart hp (fun b hb => hdigits b (by simp [hb])) (by unfold HyphenAt; omega) hb
    · exact hdash (by unfold HyphenAt; omega) hb
    · exact hpart hq (fun b hb => hdigits b (by simp [hb])) (by unfold HyphenAt; omega) hb
    · exact hdash (by unfold HyphenAt; omega) hb
    · exact hpart hr (fun b hb => hdigits b (by simp [hb])) (by unfold HyphenAt; omega) hb
    · exact hdash (by unfold HyphenAt; omega) hb
    · exact hpart hs (fun b hb => hdigits b (by simp [hb])) (by unfold HyphenAt; omega) hb
    · exact hdash (by unfold HyphenAt; omega) hb
    · exact hpart ht (fun b hb => hdigits b (by simp [hb])) (by unfold HyphenAt; omega) hb
  constructor
  · simp [hyphenated, hhyphen, hp, hq, hr, hs, ht]
  · intro i b hb hi
    rcases hoctet i b hb with h | h
    · exact h.2
    · exact absurd hi h.1
  · intro i b hb hi
    rcases hoctet i b hb with h | h
    · exact absurd h.1 hi
    · exact h.2

/-- Position 14 holds the first digit of the third part, position 19 that
    of the fourth. -/
theorem getElem?_hyphenated (hp : p.length = 8) (hq : q.length = 4) (hr : r.length = 4)
    (hs : s.length = 4) : (hyphenated p q r s t)[14]? = r[0]? ∧
      (hyphenated p q r s t)[19]? = s[0]? := by
  have hhyphen : lit "-" = [45] := by decide
  unfold hyphenated
  rw [hhyphen]
  constructor <;> simp [List.getElem?_append, hp, hq, hr, hs]

theorem hyphenated_injective {p' q' r' s' t' : Bytes} (hp : p.length = p'.length)
    (hq : q.length = q'.length) (hr : r.length = r'.length) (hs : s.length = s'.length)
    (h : hyphenated p q r s t = hyphenated p' q' r' s' t') :
    p = p' ∧ q = q' ∧ r = r' ∧ s = s' ∧ t = t' := by
  simp only [hyphenated, List.append_assoc] at h
  obtain ⟨hp, h⟩ := List.append_inj h hp
  obtain ⟨hq, h⟩ := List.append_inj (List.append_cancel_left h) hq
  obtain ⟨hr, h⟩ := List.append_inj (List.append_cancel_left h) hr
  obtain ⟨hs, h⟩ := List.append_inj (List.append_cancel_left h) hs
  exact ⟨hp, hq, hr, hs, List.append_cancel_left h⟩

end Parts

/-- The ID tells the octets between the hyphens. -/
theorem generateNodeID_eq_iff_stamp {b b' : Bytes} (h : b.length = 16) (h' : b'.length = 16) :
    generateNodeID b = generateNodeID b' ↔ stamp b = stamp b' := by
  rw [generateNodeID_eq, generateNodeID_eq]
  constructor
  · intro heq
    obtain ⟨h₁, h₂, h₃, h₄, h₅⟩ := hyphenated_injective (by simp [h, h']) (by simp [h, h'])
      (by simp [h, h']) (by simp [h, h']) heq
    -- the stamp is cut where the format string has its hyphens
    have hslices (s : Bytes) : s = s.take 4 ++ ((s.drop 4).take 2 ++ ((s.drop 6).take 2 ++
        ((s.drop 8).take 2 ++ s.drop 10))) := by
      conv_lhs => rw [← List.take_append_drop 4 s, ← List.take_append_drop 2 (s.drop 4),
        ← List.take_append_drop 2 (List.drop 2 (s.drop 4)),
        ← List.take_append_drop 2 (List.drop 2 (List.drop 2 (s.drop 4)))]
      simp only [List.drop_drop]
    rw [hslices (stamp b), hslices (stamp b'), hex_injective h₁, hex_injective h₂,
      hex_injective h₃, hex_injective h₄, hex_injective h₅]
  · intro heq
    rw [heq]

/-! ## The bits -/

/-- The random octets as `rand.Read` fills them. -/
abbrev RandomOctets : Type := {b : Bytes // b.length = 16}

/-- A bit of an octet, the lowest being bit 0. -/
def bit (b : Bytes) (i j : Nat) : Bool := (b.getD i 0).toNat.testBit j

/-- The upper half of octet 6. -/
def VersionBit (i j : Nat) : Prop := i = 6 ∧ 4 ≤ j

/-- The two uppermost bits of octet 8. -/
def VariantBit (i j : Nat) : Prop := i = 8 ∧ 6 ≤ j

instance (i j : Nat) : Decidable (VersionBit i j) := inferInstanceAs (Decidable (_ ∧ _))
instance (i j : Nat) : Decidable (VariantBit i j) := inferInstanceAs (Decidable (_ ∧ _))

/-- The positions that are neither. -/
def entropyBits : Finset (Fin 16 × Fin 8) :=
  Finset.univ.filter fun k => ¬VersionBit k.1 k.2 ∧ ¬VariantBit k.1 k.2

theorem card_entropyBits : entropyBits.card = 122 := by decide +kernel

theorem octet_eq_iff (x y : UInt8) :
    x = y ↔ ∀ j < 8, x.toNat.testBit j = y.toNat.testBit j := by
  constructor
  · intro h j _
    rw [h]
  · intro h
    rw [← UInt8.toNat_inj]
    apply Nat.eq_of_testBit_eq
    intro j
    by_cases hj : j < 8
    · exact h j hj
    · have hpow : 2 ^ 8 ≤ 2 ^ j := Nat.pow_le_pow_right (by decide) (by omega)
      have hx := x.toNat_lt
      have hy := y.toNat_lt
      rw [Nat.testBit_lt_two_pow (by omega), Nat.testBit_lt_two_pow (by omega)]

theorem getD_stamp {b : Bytes} (h : b.length = 16) (i : Nat) :
    (stamp b).getD i 0 =
      if i = 6 then (b.getD 6 0 &&& 0x0f) ||| 0x40
      else if i = 8 then (b.getD 8 0 &&& 0x3f) ||| 0x80
      else b.getD i 0 := by
  unfold stamp
  simp only [List.getD_eq_getElem?_getD, List.getElem?_set, List.length_set, h]
  by_cases h6 : i = 6
  · subst h6
    simp
  · by_cases h8 : i = 8
    · subst h8
      simp
    · simp [h6, h8, Ne.symm h6, Ne.symm h8]

/-- The octets with version and variant, bit by bit. -/
theorem bit_stamp {b : Bytes} (h : b.length = 16) {i j : Nat} (hj : j < 8) :
    bit (stamp b) i j =
      if VersionBit i j then decide (j = 6)
      else if VariantBit i j then decide (j = 7)
      else bit b i j := by
  -- the four masks, bit by bit
  have hmasks : ∀ j : Fin 8, (0x0f : UInt8).toNat.testBit j = decide (j.val < 4) ∧
      (0x40 : UInt8).toNat.testBit j = decide (j.val = 6) ∧
      (0x3f : UInt8).toNat.testBit j = decide (j.val < 6) ∧
      (0x80 : UInt8).toNat.testBit j = decide (j.val = 7) := by decide
  obtain ⟨h0f, h40, h3f, h80⟩ := hmasks ⟨j, hj⟩
  unfold bit
  rw [getD_stamp h]
  -- octet 6 carries the version, octet 8 the variant
  by_cases h6 : i = 6
  · subst h6
    rw [if_pos rfl, UInt8.toNat_or, UInt8.toNat_and, Nat.testBit_or, Nat.testBit_and, h0f, h40]
    by_cases hversion : 4 ≤ j
    · simp [VersionBit, hversion]
    · have hj6 : j ≠ 6 := by omega
      simp [VersionBit, VariantBit, hversion, hj6, show j < 4 by omega]
  · rw [if_neg h6, if_neg fun hv : VersionBit i j => h6 hv.1]
    by_cases h8 : i = 8
    · subst h8
      rw [if_pos rfl, UInt8.toNat_or, UInt8.toNat_and, Nat.testBit_or, Nat.testBit_and, h3f, h80]
      by_cases hvariant : 6 ≤ j
      · simp [VariantBit, hvariant]
      · have hj7 : j ≠ 7 := by omega
        simp [VariantBit, hvariant, hj7, show j < 6 by omega]
    · rw [if_neg h8, if_neg fun hv : VariantBit i j => h8 hv.1]

/-- Two stamped octet strings are equal exactly if the free bits are. -/
theorem stamp_eq_iff {b b' : Bytes} (h : b.length = 16) (h' : b'.length = 16) :
    stamp b = stamp b' ↔ ∀ k ∈ entropyBits, bit b k.1 k.2 = bit b' k.1 k.2 := by
  constructor
  · -- a free bit of the stamp is the bit itself
    intro heq k hk
    obtain ⟨-, hversion, hvariant⟩ := Finset.mem_filter.mp hk
    have hbit := bit_stamp h (i := k.1) k.2.isLt
    have hbit' := bit_stamp h' (i := k.1) k.2.isLt
    rw [if_neg hversion, if_neg hvariant] at hbit hbit'
    rw [← hbit, ← hbit', heq]
  · intro hbits
    have hoctet (i : Nat) (hi : i < 16) : (stamp b).getD i 0 = (stamp b').getD i 0 := by
      rw [octet_eq_iff]
      intro j hj
      have hbit := bit_stamp h (i := i) hj
      have hbit' := bit_stamp h' (i := i) hj
      unfold bit at hbit hbit'
      rw [hbit, hbit']
      -- a free bit is the same, the others are what the stamp says
      split_ifs with hversion hvariant
      · rfl
      · rfl
      · exact hbits (⟨i, hi⟩, ⟨j, hj⟩) (by simp [entropyBits, hversion, hvariant])
    apply List.ext_getElem (by simp [h, h'])
    intro i hi hi'
    have hi : i < 16 := by simpa [h] using hi
    have heq := hoctet i hi
    rw [List.getD_eq_getElem?_getD, List.getElem?_eq_getElem (by simpa [h]), Option.getD_some,
      List.getD_eq_getElem?_getD, List.getElem?_eq_getElem (by simpa [h']), Option.getD_some] at heq
    exact heq

/-! ## The IDs -/

theorem uuidGrammar_generateNodeID {b : Bytes} (h : b.length = 16) :
    UuidGrammar (generateNodeID b) := by
  rw [generateNodeID_eq]
  apply uuidGrammar_hyphenated
  all_goals try simp [h]
  intro d hd
  rcases hd with hd | hd | hd | hd | hd <;> exact isHex_of_mem_hex hd

theorem hex_slice_head {s : Bytes} {i : Nat} (h : i < s.length) :
    (hex ((s.drop i).take 2))[0]? = some (hexDigit ((s.getD i 0).toNat / 16)) := by
  rw [List.drop_eq_getElem_cons h, List.take_succ_cons, hex_cons, List.getElem?_cons_zero,
    List.getD_eq_getElem?_getD, List.getElem?_eq_getElem h, Option.getD_some]

/-- The first digit of the third part is that of the version, the first of
    the fourth that of the variant. -/
theorem stamped_digits {b : Bytes} (h : b.length = 16) :
    (hex (((stamp b).drop 6).take 2))[0]? = some 52 ∧
    ∃ d ∈ lit "89ab", (hex (((stamp b).drop 8).take 2))[0]? = some d := by
  have hversion : ∀ n : Fin 256, hexDigit ((n.val &&& 0x0f ||| 0x40) / 16) = 52 := by
    decide +kernel
  have hvariant : ∀ n : Fin 256, hexDigit ((n.val &&& 0x3f ||| 0x80) / 16) ∈ lit "89ab" := by
    decide +kernel
  constructor
  · rw [hex_slice_head (by simp [h]), getD_stamp h, if_pos rfl, UInt8.toNat_or, UInt8.toNat_and]
    exact congrArg some (hversion ⟨_, (b.getD 6 0).toNat_lt⟩)
  · rw [hex_slice_head (by simp [h]), getD_stamp h, if_neg (by decide), if_pos rfl, UInt8.toNat_or,
      UInt8.toNat_and]
    exact ⟨_, hvariant ⟨_, (b.getD 8 0).toNat_lt⟩, rfl⟩

/-- **Generated IDs** are accepted, tell their version and variant, and
    keep all other bits. -/
theorem generated_accepted (b b' : RandomOctets) :
    (isUUID (generateNodeID b.1) = true ∧ (generateNodeID b.1)[14]? = some 52 ∧
      ∃ d ∈ lit "89ab", (generateNodeID b.1)[19]? = some d) ∧
    entropyBits.card = 122 ∧
    (generateNodeID b.1 = generateNodeID b'.1 ↔
      ∀ k ∈ entropyBits, bit b.1 k.1 k.2 = bit b'.1 k.1 k.2) := by
  have hgrammar := uuidGrammar_generateNodeID b.2
  have hdigits := stamped_digits b.2
  obtain ⟨h14, h19⟩ := getElem?_hyphenated (p := hex ((stamp b.1).take 4))
    (q := hex (((stamp b.1).drop 4).take 2)) (r := hex (((stamp b.1).drop 6).take 2))
    (s := hex (((stamp b.1).drop 8).take 2)) (t := hex ((stamp b.1).drop 10))
    (by simp [b.2]) (by simp [b.2]) (by simp [b.2]) (by simp [b.2])
  rw [← generateNodeID_eq] at h14 h19
  refine ⟨⟨(isUUID_of_ascii hgrammar.ascii).mpr hgrammar, ?_, ?_⟩, card_entropyBits, ?_⟩
  · rw [h14]
    exact hdigits.1
  · rw [h19]
    exact hdigits.2
  · rw [generateNodeID_eq_iff_stamp b.2 b'.2]
    exact stamp_eq_iff b.2 b'.2

end HopVault.Directory
