import HopVault.Framework.Utf8

/-! # Base64

    The standard base64 alphabet with padding. Decoding skips carriage
    returns and line feeds, wants the padding, and ignores the unused low
    bits of the last group. -/

namespace Framework.Base64

/-! ## The alphabet -/

/-- The sextet `n` as a character: `A`-`Z`, `a`-`z`, `0`-`9`, `+`, `/`. -/
def encodeSextet (n : Nat) : UInt8 :=
  if n < 26 then UInt8.ofNat (65 + n)
  else if n < 52 then UInt8.ofNat (97 + (n - 26))
  else if n < 62 then UInt8.ofNat (48 + (n - 52))
  else if n = 62 then 43 else 47

/-- The sextet a character stands for. -/
def decodeSextet (b : UInt8) : Option Nat :=
  let x := b.toNat
  if 65 ≤ x ∧ x ≤ 90 then some (x - 65)
  else if 97 ≤ x ∧ x ≤ 122 then some (x - 97 + 26)
  else if 48 ≤ x ∧ x ≤ 57 then some (x - 48 + 52)
  else if x = 43 then some 62
  else if x = 47 then some 63
  else none

/-- The padding character `=`. -/
def pad : UInt8 := 61

/-! ## Encoding and decoding -/

/-- Base64 with padding. -/
def encode : Bytes → Bytes
  | [] => []
  | [a] =>
    let x := a.toNat
    [encodeSextet (x / 4), encodeSextet (x % 4 * 16), pad, pad]
  | [a, b] =>
    let x := a.toNat
    let y := b.toNat
    [encodeSextet (x / 4), encodeSextet (x % 4 * 16 + y / 16), encodeSextet (y % 16 * 4), pad]
  | a :: b :: c :: t =>
    let x := a.toNat
    let y := b.toNat
    let z := c.toNat
    encodeSextet (x / 4) :: encodeSextet (x % 4 * 16 + y / 16)
      :: encodeSextet (y % 16 * 4 + z / 64) :: encodeSextet (z % 64) :: encode t

/-- Decode the groups of a text without line ends. -/
def decodeGroups : Bytes → Option Bytes
  | [] => some []
  | a :: b :: c :: d :: t => do
    let i ← decodeSextet a
    let j ← decodeSextet b
    let x := UInt8.ofNat (i * 4 + j / 16)
    if d = pad then
      if t ≠ [] then none
      else if c = pad then some [x]
      else
        let k ← decodeSextet c
        some [x, UInt8.ofNat (j % 16 * 16 + k / 4)]
    else
      let k ← decodeSextet c
      let l ← decodeSextet d
      let r ← decodeGroups t
      some (x :: UInt8.ofNat (j % 16 * 16 + k / 4) :: UInt8.ofNat (k % 4 * 64 + l) :: r)
  | _ => none

/-- Carriage return or line feed. -/
def isNewline (b : UInt8) : Bool := b == 13 || b == 10

/-- Decode a base64 text. -/
def decode (s : Bytes) : Option Bytes := decodeGroups (s.filter fun b => !isNewline b)

/-! ## Round trip -/

theorem decodeSextet_encodeSextet {n : Nat} (h : n < 64) :
    decodeSextet (encodeSextet n) = some n := by
  revert n
  decide

theorem encodeSextet_ne_pad {n : Nat} (h : n < 64) : encodeSextet n ≠ pad := by
  revert n
  decide

theorem encodeSextet_not_newline {n : Nat} (h : n < 64) : isNewline (encodeSextet n) = false := by
  revert n
  decide

/-- Sextet characters lie between `+` and `z`. -/
theorem encodeSextet_ascii {n : Nat} (h : n < 64) :
    0x2B ≤ (encodeSextet n).toNat ∧ (encodeSextet n).toNat ≤ 0x7A := by
  revert n
  decide

theorem toNat_lt (a : UInt8) : a.toNat < 256 := UInt8.toNat_lt a

/-- Decoding the groups of an encoded text gives the octets back. -/
theorem decodeGroups_encode : ∀ s : Bytes, decodeGroups (encode s) = some s
  | [] => rfl
  | [a] => by
    have ha := toNat_lt a
    simp only [encode, decodeGroups]
    rw [decodeSextet_encodeSextet (by omega), decodeSextet_encodeSextet (by omega)]
    simp only [Option.bind_eq_bind, Option.bind_some, ne_eq, not_true_eq_false, if_true, if_false]
    rw [Utf8.ofNat_eq (b := a) (by omega)]
  | [a, b] => by
    have ha := toNat_lt a
    have hb := toNat_lt b
    have hne : encodeSextet (b.toNat % 16 * 4) ≠ pad := encodeSextet_ne_pad (by omega)
    simp only [encode, decodeGroups]
    rw [decodeSextet_encodeSextet (by omega), decodeSextet_encodeSextet (by omega),
      decodeSextet_encodeSextet (by omega)]
    simp only [Option.bind_eq_bind, Option.bind_some, ne_eq, not_true_eq_false, if_true, if_false,
      if_neg hne]
    rw [Utf8.ofNat_eq (b := a) (by omega), Utf8.ofNat_eq (b := b) (by omega)]
  | a :: b :: c :: t => by
    have ha := toNat_lt a
    have hb := toNat_lt b
    have hc := toNat_lt c
    have hne : encodeSextet (c.toNat % 64) ≠ pad := encodeSextet_ne_pad (by omega)
    simp only [encode, decodeGroups]
    rw [decodeSextet_encodeSextet (by omega), decodeSextet_encodeSextet (by omega),
      decodeSextet_encodeSextet (by omega), decodeSextet_encodeSextet (by omega),
      decodeGroups_encode t]
    simp only [Option.bind_eq_bind, Option.bind_some, if_neg hne]
    rw [Utf8.ofNat_eq (b := a) (by omega), Utf8.ofNat_eq (b := b) (by omega), Utf8.ofNat_eq (b := c) (by omega)]

/-- Every character of an encoded text is a sextet's or the padding. -/
theorem mem_encode : ∀ {s : Bytes} {b : UInt8}, b ∈ encode s →
    (∃ n < 64, b = encodeSextet n) ∨ b = pad
  | [], b => by simp [encode]
  | [x], b => by
    have hx := toNat_lt x
    simp only [encode, List.mem_cons, List.not_mem_nil, or_false]
    rintro (rfl | rfl | rfl | rfl)
    · exact .inl ⟨_, by omega, rfl⟩
    · exact .inl ⟨_, by omega, rfl⟩
    · exact .inr rfl
    · exact .inr rfl
  | [x, y], b => by
    have hx := toNat_lt x
    have hy := toNat_lt y
    simp only [encode, List.mem_cons, List.not_mem_nil, or_false]
    rintro (rfl | rfl | rfl | rfl)
    · exact .inl ⟨_, by omega, rfl⟩
    · exact .inl ⟨_, by omega, rfl⟩
    · exact .inl ⟨_, by omega, rfl⟩
    · exact .inr rfl
  | x :: y :: z :: t, b => by
    have hx := toNat_lt x
    have hy := toNat_lt y
    have hz := toNat_lt z
    simp only [encode, List.mem_cons]
    rintro (rfl | rfl | rfl | rfl | h)
    · exact .inl ⟨_, by omega, rfl⟩
    · exact .inl ⟨_, by omega, rfl⟩
    · exact .inl ⟨_, by omega, rfl⟩
    · exact .inl ⟨_, by omega, rfl⟩
    · exact mem_encode h

/-- No character of an encoded text is a line end. -/
theorem encode_not_newline {s : Bytes} {b : UInt8} (h : b ∈ encode s) : isNewline b = false := by
  rcases mem_encode h with ⟨n, hn, rfl⟩ | rfl
  · exact encodeSextet_not_newline hn
  · rfl

/-- Characters of an encoded text are ASCII. -/
theorem encode_ascii {s : Bytes} {b : UInt8} (h : b ∈ encode s) :
    0x2B ≤ b.toNat ∧ b.toNat ≤ 0x7A := by
  rcases mem_encode h with ⟨n, hn, rfl⟩ | rfl
  · exact encodeSextet_ascii hn
  · decide

/-- **Round trip**: decoding an encoded byte string gives it back. -/
@[simp] theorem decode_encode (s : Bytes) : decode (encode s) = some s := by
  have hf : (encode s).filter (fun b => !isNewline b) = encode s := by
    rw [List.filter_eq_self]
    intro b hb
    simp [encode_not_newline hb]
  rw [decode, hf, decodeGroups_encode]

/-! ## Lengths -/

/-- The length of an encoded text depends on the length of the octets only. -/
theorem length_encode : ∀ s : Bytes, (encode s).length = (s.length + 2) / 3 * 4
  | [] => rfl
  | [a] => by simp [encode]
  | [a, b] => by simp [encode]
  | a :: b :: c :: t => by
    have ih := length_encode t
    simp only [encode, List.length_cons, ih]
    omega

end Framework.Base64
