import HopVault.Directory.Server

/-! # Node IDs

    `isUUID` of `directory-server/main.go` counts the length and the
    positions of a string in octets, but ranges over its runes, and cuts
    each rune to its low octet before it tests it. So a rune of several
    octets may take the place of as many digits. -/

namespace HopVault.Directory

open Framework Framework.Utf8

/-! ## The grammar -/

/-- The positions of the hyphens. -/
def HyphenAt (i : Nat) : Prop := i = 8 ∨ i = 13 ∨ i = 18 ∨ i = 23

instance (i : Nat) : Decidable (HyphenAt i) :=
  inferInstanceAs (Decidable (i = 8 ∨ i = 13 ∨ i = 18 ∨ i = 23))

/-- An ASCII hexadecimal digit. -/
def HexDigit (b : UInt8) : Prop := b ∈ lit "0123456789abcdefABCDEF"

/-- 36 octets, with hyphens at their positions and hexadecimal digits at
    all others. -/
structure UuidGrammar (value : Bytes) : Prop where
  length : value.length = 36
  hyphen : ∀ i b, value[i]? = some b → HyphenAt i → b = 45
  digit : ∀ i b, value[i]? = some b → ¬HyphenAt i → HexDigit b

theorem isHexDigit_iff {b : UInt8} : isHexDigit b = true ↔ HexDigit b := by
  have hdigits : lit "0123456789abcdefABCDEF" = [48, 49, 50, 51, 52, 53, 54, 55, 56, 57,
      97, 98, 99, 100, 101, 102, 65, 66, 67, 68, 69, 70] := by decide +kernel
  simp only [isHexDigit, HexDigit, hdigits, List.mem_cons, List.not_mem_nil, or_false,
    ← UInt8.toNat_inj, decide_eq_true_eq]
  simp only [UInt8.toNat_ofNat]
  omega

/-- Both are ASCII. -/
theorem UuidGrammar.ascii {value : Bytes} (h : UuidGrammar value) : ∀ b ∈ value, b.toNat < 0x80 := by
  intro b hb
  obtain ⟨i, hi, hget⟩ := List.getElem_of_mem hb
  have hget : value[i]? = some b := by rw [List.getElem?_eq_getElem hi, hget]
  by_cases hhyphen : HyphenAt i
  · rw [h.hyphen i b hget hhyphen]
    decide
  · have hdigit := isHexDigit_iff.mpr (h.digit i b hget hhyphen)
    unfold isHexDigit at hdigit
    simp only [decide_eq_true_eq] at hdigit
    omega

/-! ## The scan -/

/-- What the loop asks of the rune that starts at octet `i`. -/
def Passes (i : Nat) (g : Seg) : Prop :=
  if HyphenAt i then g.code = 45 else isHexDigit (UInt8.ofNat g.code) = true

/-- The octets before a rune. -/
def offset (front : List Seg) : Nat := (front.flatMap Seg.octets).length

/-- The loop passes if every rune does. The induction is on the runes. -/
theorem isUUIDFrom_iff {i : Nat} {gs : List Seg} : isUUIDFrom i gs = true ↔
    ∀ front g back, gs = front ++ g :: back → Passes (i + offset front) g := by
  -- every split of the runes is asked about, so the induction is on the runes
  induction gs generalizing i with
  | nil =>
    refine iff_of_true rfl ?_
    intro front g back h
    cases front <;> cases h
  | cons g gs ih =>
    -- the test that the loop makes at this position
    have hfirst : ((if i = 8 ∨ i = 13 ∨ i = 18 ∨ i = 23 then g.code == 45
        else isHexDigit (UInt8.ofNat g.code)) = true) ↔ Passes i g := by
      show _ ↔ if i = 8 ∨ i = 13 ∨ i = 18 ∨ i = 23 then _ else _
      split_ifs
      · exact beq_iff_eq
      · exact Iff.rfl
    unfold isUUIDFrom
    rw [Bool.and_eq_true, hfirst, ih]
    constructor
    · intro h front g' back hsplit
      cases front with
      | nil =>
        cases hsplit
        exact h.1
      | cons g₀ front =>
        cases hsplit
        have hrest := h.2 front g' back rfl
        have hoffset : offset (g :: front) = g.octets.length + offset front := by
          simp [offset]
        rw [hoffset, ← Nat.add_assoc]
        exact hrest
    · intro h
      refine ⟨h [] g gs rfl, ?_⟩
      intro front g' back hsplit
      have hpass := h (g :: front) g' back (by rw [hsplit]; rfl)
      have hoffset : offset (g :: front) = g.octets.length + offset front := by
        simp [offset]
      rw [hoffset, ← Nat.add_assoc] at hpass
      exact hpass

/-- A string that the loop reads as a UUID although a rune from U+0080 on
    stands in it. -/
structure Disguised (value : Bytes) : Prop where
  length : value.length = 36
  foreign : ∃ g ∈ segs value, 0x80 ≤ g.code
  passes : ∀ front g back, segs value = front ++ g :: back → Passes (offset front) g

/-- Only an ASCII string has only runes below U+0080. -/
theorem ascii_of_codes {value : Bytes} (h : ∀ g ∈ segs value, g.code < 0x80) :
    ∀ b ∈ value, b.toNat < 0x80 := by
  intro b hb
  rw [← segs_flatMap_octets value, List.mem_flatMap] at hb
  obtain ⟨g, hg, hb⟩ := hb
  have hcode := h g hg
  have hproper := segs_proper value g hg
  cases g with
  | bad b' =>
    have hbad : (Seg.bad b').code = 0xFFFD := rfl
    omega
  | rune c o =>
    have hcode : c < 0x80 := hcode
    have hread := hproper.2 []
    rw [List.append_nil] at hread
    -- the octets of a small rune are its code
    have hocts := encodeRune_of_decodeRune hread
    rw [List.take_length, encodeRune, if_pos hcode] at hocts
    have hb : b ∈ o := hb
    rw [← hocts, List.mem_singleton] at hb
    rw [hb, toNat_ofNat_of_lt (by omega)]
    exact hcode

/-- The validator: the length, and every rune passes. -/
theorem isUUID_iff {value : Bytes} : isUUID value = true ↔ value.length = 36 ∧
    ∀ front g back, segs value = front ++ g :: back → Passes (offset front) g := by
  unfold isUUID
  rw [Bool.and_eq_true, beq_iff_eq, isUUIDFrom_iff]
  simp only [Nat.zero_add]

/-- The runes of an ASCII string pass where its octets are what the grammar
    wants. -/
theorem passes_iff_of_ascii {value : Bytes} (hascii : ∀ b ∈ value, b.toNat < 0x80) :
    (∀ front g back, segs value = front ++ g :: back → Passes (offset front) g) ↔
      ∀ i b, value[i]? = some b → if HyphenAt i then b = 45 else HexDigit b := by
  have hoffset (l : Bytes) : offset (l.map fun b => .rune b.toNat [b]) = l.length := by
    simp [offset, List.flatMap_map, Seg.octets]
  -- on ASCII a rune is one octet, so positions of runes are positions of octets
  have hpasses (i : Nat) (b : UInt8) : Passes i (.rune b.toNat [b]) ↔
      if HyphenAt i then b = 45 else HexDigit b := by
    unfold Passes
    split_ifs
    · show b.toNat = 45 ↔ b = 45
      rw [← UInt8.toNat_inj]
      rfl
    · show isHexDigit (UInt8.ofNat b.toNat) = true ↔ _
      rw [UInt8.ofNat_toNat, isHexDigit_iff]
  rw [segs_ascii hascii]
  constructor
  · intro h i b hget
    obtain ⟨hi, rfl⟩ := List.getElem?_eq_some_iff.mp hget
    have hsplit : value.map (fun b => Seg.rune b.toNat [b]) =
        (value.take i).map (fun b => .rune b.toNat [b]) ++
          .rune value[i].toNat [value[i]] :: (value.drop (i + 1)).map fun b => .rune b.toNat [b] := by
      conv_lhs => rw [← List.take_append_drop i value, List.drop_eq_getElem_cons hi]
      rw [List.map_append, List.map_cons]
    have hpass := h _ _ _ hsplit
    rw [hoffset, List.length_take_of_le hi.le] at hpass
    exact (hpasses i _).mp hpass
  · intro h front g back hsplit
    obtain ⟨l₁, l₂, rfl, rfl, hback⟩ := List.map_eq_append_iff.mp hsplit
    obtain ⟨b, l₃, rfl, rfl, rfl⟩ := List.map_eq_cons_iff.mp hback
    rw [hoffset]
    exact (hpasses _ b).mpr (h _ _ (by simp))

/-- On ASCII strings the validator is right. -/
theorem isUUID_of_ascii {value : Bytes} (hascii : ∀ b ∈ value, b.toNat < 0x80) :
    isUUID value = true ↔ UuidGrammar value := by
  rw [isUUID_iff, passes_iff_of_ascii hascii]
  constructor
  · intro h
    obtain ⟨hlength, hget⟩ := h
    constructor
    · exact hlength
    · intro i b hb hhyphen
      have hread := hget i b hb
      rwa [if_pos hhyphen] at hread
    · intro i b hb hhyphen
      have hread := hget i b hb
      rwa [if_neg hhyphen] at hread
  · intro h
    refine ⟨h.length, ?_⟩
    intro i b hb
    split_ifs with hhyphen
    · exact h.hyphen i b hb hhyphen
    · exact h.digit i b hb hhyphen

/-- Whatever runes stand in it, the ASCII octets of a string that is taken
    for a UUID are digits and hyphens. -/
theorem octet_of_isUUID {value : Bytes} (h : isUUID value = true) {b : UInt8} (hb : b ∈ value)
    (hascii : b.toNat < 0x80) : b = 45 ∨ HexDigit b := by
  rw [← segs_flatMap_octets value, List.mem_flatMap] at hb
  obtain ⟨g, hg, hb⟩ := hb
  have hproper := segs_proper value g hg
  obtain ⟨front, back, hsplit⟩ := List.append_of_mem hg
  have hpass := (isUUID_iff.mp h).2 front g back hsplit
  cases g with
  | bad b' =>
    -- an invalid octet is not ASCII
    rw [List.mem_singleton.mp hb] at hascii
    have hhigh : 0x80 ≤ b'.toNat := hproper
    omega
  | rune c o =>
    have hread := hproper.2 []
    rw [List.append_nil] at hread
    have hocts := encodeRune_of_decodeRune hread
    rw [List.take_length] at hocts
    have hb : b ∈ o := hb
    rw [← hocts] at hb
    -- a rune below 80 is its octet; the octets of any other are all high
    by_cases hc : c < 0x80
    · rw [encodeRune, if_pos hc, List.mem_singleton] at hb
      have hcode : c = b.toNat := by rw [hb, toNat_ofNat_of_lt (by omega)]
      unfold Passes at hpass
      split_ifs at hpass
      · left
        rw [← UInt8.toNat_inj, ← hcode]
        exact hpass
      · right
        rw [hb]
        exact isHexDigit_iff.mp hpass
    · have hhigh := encodeRune_high (Nat.le_of_not_lt hc) b hb
      omega

/-- It does not occur in an ASCII text without hyphens. -/
theorem not_infix_of_isUUID {value text : Bytes} (h : isUUID value = true)
    (hascii : ∀ b ∈ text, b.toNat < 0x80) (hhyphen : 45 ∉ text) : ¬value <:+: text := by
  intro hin
  have hgrammar := (isUUID_of_ascii fun b hb => hascii b (hin.subset hb)).mp h
  have hlength : 8 < value.length := by
    rw [hgrammar.length]
    decide
  have h8 := hgrammar.hyphen 8 value[8] (List.getElem?_eq_getElem hlength) (.inl rfl)
  apply hhyphen
  rw [← h8]
  exact hin.subset (List.getElem_mem hlength)

/-- Nor in a numeral, whose only hyphen is its sign. -/
theorem not_infix_itoa_of_isUUID {value : Bytes} (h : isUUID value = true) (i : Int) :
    ¬value <:+: Decimal.itoa i := by
  have hdigit {n : Nat} {b : UInt8} (hb : b ∈ Decimal.digits n) : 48 ≤ b.toNat ∧ b.toNat ≤ 57 :=
    of_decide_eq_true (Decimal.isDigit_of_mem_digits hb)
  have hnone (n : Nat) : ¬value <:+: Decimal.digits n := by
    apply not_infix_of_isUUID h
    · intro b hb
      have hrange := hdigit hb
      omega
    · intro hb
      have hrange := (hdigit hb).1
      revert hrange
      decide
  have hlength := (isUUID_iff.mp h).1
  -- only a minus sign is no digit, and it cannot open the ID
  cases i with
  | ofNat n => exact hnone n
  | negSucc n =>
    intro hin
    have hascii : ∀ b ∈ value, b.toNat < 0x80 := by
      intro b hb
      rcases List.mem_cons.mp (hin.subset hb) with rfl | hb
      · decide
      · have hrange := hdigit hb
        omega
    have hgrammar := (isUUID_of_ascii hascii).mp h
    apply hnone (n + 1)
    have hne : value ≠ [] := by
      rintro rfl
      cases hlength
    refine (infix_cons hne ?_).mp hin
    -- a hyphen is no digit
    intro hhead
    rw [List.head?_eq_getElem?] at hhead
    have hno := isHexDigit_iff.mpr (hgrammar.digit 0 45 hhead (by decide))
    revert hno
    decide

/-- **The validator and the grammar** agree on a string exactly if it is not
    disguised. -/
theorem isUUID_iff_grammar (value : Bytes) :
    (isUUID value = true ↔ UuidGrammar value) ↔ ¬Disguised value := by
  -- on ASCII there is no disguise, on anything else there is no grammar
  by_cases hascii : ∀ b ∈ value, b.toNat < 0x80
  · refine iff_of_true (isUUID_of_ascii hascii) ?_
    intro hdisguised
    obtain ⟨g, hg, hforeign⟩ := hdisguised.foreign
    rw [segs_ascii hascii, List.mem_map] at hg
    obtain ⟨b, hb, rfl⟩ := hg
    have hb := hascii b hb
    have hforeign : 0x80 ≤ b.toNat := hforeign
    omega
  · have hgrammar : ¬UuidGrammar value := fun h => hascii h.ascii
    -- all that keeps the string from the disguise is the validator itself
    have hforeign : ∃ g ∈ segs value, 0x80 ≤ g.code := by
      by_contra hnone
      apply hascii
      apply ascii_of_codes
      intro g hg
      by_contra hcode
      exact hnone ⟨g, hg, by omega⟩
    have hdisguised : isUUID value = true ↔ Disguised value := by
      rw [isUUID_iff]
      constructor
      · intro h
        exact ⟨h.1, hforeign, h.2⟩
      · intro h
        exact ⟨h.length, h.passes⟩
    rw [hdisguised]
    constructor
    · intro h hd
      exact hgrammar (h.mp hd)
    · intro hd
      exact iff_of_false hd hgrammar

/-- U+0130 stands for two digits of a node ID, as its low octet is that of
    `0`. -/
theorem isUUID_disguised :
    isUUID (lit "İ3e4567-e89b-12d3-a456-426614174999") = true ∧
    ¬UuidGrammar (lit "İ3e4567-e89b-12d3-a456-426614174999") := by
  constructor
  · decide +kernel
  · intro h
    have hdigit := h.digit 0 0xC4 (by decide +kernel) (by decide)
    have hno : isHexDigit 0xC4 = false := by decide
    rw [isHexDigit_iff.mpr hdigit] at hno
    cases hno

end HopVault.Directory
