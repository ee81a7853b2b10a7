import HopVault.Framework.JsonRoundTrip
import HopVault.Framework.Base64

/-! # The Python modules `json` and `base64`

    A Python string is kept as its octets in UTF-8, in which a lone
    surrogate has the three octets of its code point. `dumps` writes ASCII
    only; `loads` is stricter than the Go decoder about the encoding of a
    text and takes more words for numbers; `b64decode` passes over what is
    no base64 character. -/

namespace HopVault.Python

open Framework Framework.Utf8 Framework.Json

/-! ## `json.dumps` -/

/-- The code points of a string. -/
def codePoints : List Seg → List Nat
  | [] => []
  | .rune c _ :: l => c :: codePoints l
  | .bad a :: .bad b :: .bad c :: l =>
    ((a.toNat - 0xE0) * 4096 + (b.toNat - 0x80) * 64 + (c.toNat - 0x80)) :: codePoints l
  | .bad _ :: l => codePoints l

/-- `\u` and four hexadecimal digits. -/
def escapeU (n : Nat) : Bytes :=
  [92, 117, hexDigit (n / 4096 % 16), hexDigit (n / 256 % 16), hexDigit (n / 16 % 16),
    hexDigit (n % 16)]

/-- A character of a string literal: what is not printable ASCII is
    escaped, beyond U+FFFF as a pair of surrogates. -/
def escapeChar (c : Nat) : Bytes :=
  if c = 34 ∨ c = 92 then [92, UInt8.ofNat c]
  else if c = 8 then [92, 98]
  else if c = 12 then [92, 102]
  else if c = 10 then [92, 110]
  else if c = 13 then [92, 114]
  else if c = 9 then [92, 116]
  else if 0x20 ≤ c ∧ c ≤ 0x7E then [UInt8.ofNat c]
  else if c < 0x10000 then escapeU c
  else escapeU (0xD800 + (c - 0x10000) / 1024) ++ escapeU (0xDC00 + (c - 0x10000) % 1024)

/-- How `json.dumps` spells a text, with `gap` after each separator. -/
def dumpsStyle (gap : Bytes) : Style := ⟨fun s => (codePoints (segs s)).flatMap escapeChar, gap⟩

/-- `json.dumps(obj)`. -/
def dumps (j : Json) : Bytes := write (dumpsStyle [32]) j

/-- `json.dumps(obj, separators=(",", ":"))`. -/
def dumpsCompact (j : Json) : Bytes := write (dumpsStyle []) j

/-! ## `json.loads` -/

/-- The octets of a code point, surrogates included. -/
def encodePoint (c : Nat) : Bytes :=
  if 0xD800 ≤ c ∧ c ≤ 0xDFFF then
    [UInt8.ofNat (0xE0 + c / 4096), UInt8.ofNat (0x80 + c / 64 % 64), UInt8.ofNat (0x80 + c % 64)]
  else encodeRune c

/-- A `\u` escape: a pair of surrogates is one character, a lone one is
    kept. -/
def decodeU (t : Bytes) : Option (Bytes × Bytes) :=
  match getu4 t with
  | none => none
  | some (u, r) =>
    if 0xD800 ≤ u ∧ u < 0xDC00 then
      match lowSurrogate r with
      | some (v, r') =>
        some (encodeRune ((u - 0xD800) * 1024 + (v - 0xDC00) + 0x10000), r')
      | none => some (encodePoint u, r)
    else some (encodePoint u, r)

/-- An escape sequence, after its backslash. -/
def scanEscape : Bytes → Option (Bytes × Bytes)
  | [] => none
  | e :: t => if e = 117 then decodeU t else escapeSequence (e :: t)

/-- `scanstring`: a string literal after its opening quote, and the text
    after the closing quote. -/
def scanString : Nat → Bytes → Option (Bytes × Bytes)
  | 0, _ => none
  | _ + 1, [] => none
  | n + 1, b :: t =>
    if b = 34 then some ([], t)
    else if b = 92 then
      match scanEscape t with
      | some (o, r) => (scanString n r).map fun p => (o ++ p.1, p.2)
      | none => none
    else if b.toNat < 0x20 then none
    else (scanString n t).map fun p => (b :: p.1, p.2)

/-- A number, or one of the words Python reads as one. -/
def scanNumber (s : Bytes) : Option (Json × Bytes) :=
  match [lit "NaN", lit "Infinity", lit "-Infinity"].find? fun w => w.isPrefixOf s with
  | some w => some (num w, s.drop w.length)
  | none => (parseNum s).map fun p => (num p.1, p.2)

/-- The decoder of `json.loads`. -/
def scanner : Reader := ⟨fun t => scanString t.length t, scanNumber⟩

/-- The octets are those of a Python string. -/
def isText : List Seg → Bool
  | [] => true
  | .rune _ _ :: l => isText l
  | .bad a :: .bad b :: .bad c :: l =>
    decide (a.toNat = 0xED ∧ 0xA0 ≤ b.toNat ∧ b.toNat ≤ 0xBF ∧ 0x80 ≤ c.toNat ∧ c.toNat ≤ 0xBF) &&
      isText l
  | .bad _ :: _ => false

/-- Octets in UTF-8, surrogates allowed. -/
def utf8 (s : Bytes) : Option Bytes := if isText (segs s) then some s else none

/-- Two octets as a code unit, the lower one first if `le`. -/
def unit16 (le : Bool) (a b : UInt8) : Nat :=
  if le then b.toNat * 256 + a.toNat else a.toNat * 256 + b.toNat

/-- Octets in UTF-16, lone surrogates allowed. -/
def utf16 (le : Bool) : Bytes → Option Bytes
  | [] => some []
  | [a, b] => some (encodePoint (unit16 le a b))
  | a :: b :: c :: d :: t =>
    let u := unit16 le a b
    let v := unit16 le c d
    if (0xD800 ≤ u ∧ u < 0xDC00) ∧ 0xDC00 ≤ v ∧ v < 0xE000 then
      (utf16 le t).map (encodeRune ((u - 0xD800) * 1024 + (v - 0xDC00) + 0x10000) ++ ·)
    else (utf16 le (c :: d :: t)).map (encodePoint u ++ ·)
  | _ => none

/-- Octets in UTF-32, surrogates allowed. -/
def utf32 (le : Bool) : Bytes → Option Bytes
  | [] => some []
  | a :: b :: c :: d :: t =>
    let u :=
      if le then unit16 le c d * 65536 + unit16 le a b else unit16 le a b * 65536 + unit16 le c d
    if u ≤ 0x10FFFF then (utf32 le t).map (encodePoint u ++ ·) else none
  | _ => none

/-- `detect_encoding`, and the text in the encoding it finds: a byte order
    mark, or else the zeros among the first octets. -/
def decodeText (s : Bytes) : Option Bytes :=
  if [0x00, 0x00, 0xFE, 0xFF].isPrefixOf s then utf32 false (s.drop 4)
  else if [0xFF, 0xFE, 0x00, 0x00].isPrefixOf s then utf32 true (s.drop 4)
  else if [0xFE, 0xFF].isPrefixOf s then utf16 false (s.drop 2)
  else if [0xFF, 0xFE].isPrefixOf s then utf16 true (s.drop 2)
  else if [0xEF, 0xBB, 0xBF].isPrefixOf s then utf8 (s.drop 3)
  else
    match s with
    | a :: b :: c :: d :: _ =>
      if a = 0 then if b = 0 then utf32 false s else utf16 false s
      else if b = 0 then if c = 0 ∧ d = 0 then utf32 true s else utf16 true s
      else utf8 s
    | [a, b] => if a = 0 then utf16 false s else if b = 0 then utf16 true s else utf8 s
    | _ => utf8 s

/-- `json.loads` of octets. -/
def loads (s : Bytes) : Option Json := (decodeText s).bind scanner.read

/-! ## `base64.b64decode` -/

/-- The loop of `binascii.a2b_base64`: `quad` characters of the current
    group have been read, `pads` padding characters since, and `left` bits
    are left over. -/
def a2b (quad pads left : Nat) : Bytes → Option Bytes
  | [] => if quad = 0 then some [] else none
  | b :: t =>
    if b = Base64.pad then
      if 2 ≤ quad ∧ 4 ≤ quad + (pads + 1) then some []
      else a2b quad (if 2 ≤ quad then pads + 1 else pads) left t
    else
      match Base64.decodeSextet b with
      | none => a2b quad pads left t
      | some x =>
        if quad = 0 then a2b 1 0 x t
        else if quad = 1 then (a2b 2 0 (x % 16) t).map (UInt8.ofNat (left * 4 + x / 16) :: ·)
        else if quad = 2 then (a2b 3 0 (x % 4) t).map (UInt8.ofNat (left * 16 + x / 4) :: ·)
        else (a2b 0 0 0 t).map (UInt8.ofNat (left * 64 + x) :: ·)

/-- `base64.b64decode` of a string, which has to be ASCII. -/
def b64decode (s : Bytes) : Option Bytes :=
  if s.all fun b => decide (b.toNat < 0x80) then a2b 0 0 0 s else none

/-! ## What Python writes, Go reads -/

/-- A code point a string of well-formed UTF-8 may hold. -/
def IsScalar (c : Nat) : Prop := c ≤ 0x10FFFF ∧ (c < 0xD800 ∨ 0xDFFF < c)

/-- The runes of a string are characters, with the octets of their code
    points. -/
theorem isScalar_of_proper {c : Nat} {o : Bytes} (h : (Seg.rune c o).Proper) :
    IsScalar c ∧ encodeRune c = o := by
  obtain ⟨-, hread⟩ := h
  have hself := hread []
  have hoct : encodeRune c = o := by
    have h := encodeRune_of_decodeRune hself
    rwa [List.append_nil, List.take_length] at h
  refine ⟨?_, hoct⟩
  by_contra hbad
  -- anything else would be encoded as U+FFFD
  have hrepl : encodeRune c = replacement := by
    unfold IsScalar at hbad
    unfold encodeRune
    rw [if_neg (by omega), if_neg (by omega), if_pos (by omega)]
  rw [← hoct, hrepl, decodeRune_replacement] at hself
  obtain ⟨rfl, -⟩ := Prod.mk.inj (Option.some.inj hself)
  exact hbad (by unfold IsScalar; omega)

theorem getu4_hexDigits {n : Nat} (h : n < 0x10000) (r : Bytes) :
    getu4 (hexDigit (n / 4096 % 16) :: hexDigit (n / 256 % 16) :: hexDigit (n / 16 % 16) ::
      hexDigit (n % 16) :: r) = some (n, r) := by
  simp only [getu4, hexVal_hexDigit (Nat.mod_lt _ (show 16 > 0 by decide)),
    Option.bind_eq_bind, Option.bind_some, Option.some.injEq, Prod.mk.injEq, and_true]
  omega

/-- The Go decoder reads a printable ASCII octet as it stands. -/
theorem parseStr_plain {b : UInt8} (hlow : 0x20 ≤ b.toNat) (hhigh : b.toNat < 0x80)
    (h34 : b.toNat ≠ 34) (h92 : b.toNat ≠ 92) (n : Nat) (r : Bytes) :
    parseStr (n + 1) (b :: r) = (parseStr n r).map fun p => (b :: p.1, p.2) := by
  simp only [parseStr, if_neg h34, if_neg h92, if_neg (show ¬b.toNat < 0x20 by omega),
    decodeRune_ascii hhigh, List.drop_one, List.tail_cons, List.take_succ_cons, List.take_zero,
    List.cons_append, List.nil_append]

/-- The Go decoder reads one `\u` escape. -/
theorem parseStr_escapeU {c : Nat} (hc : c < 0x10000) (hsurrogate : c < 0xD800 ∨ 0xDFFF < c)
    (n : Nat) (r : Bytes) :
    parseStr (n + 1) (escapeU c ++ r) = (parseStr n r).map fun p => (encodeRune c ++ p.1, p.2) := by
  have hesc : unicodeEscape (hexDigit (c / 4096 % 16) :: hexDigit (c / 256 % 16) ::
      hexDigit (c / 16 % 16) :: hexDigit (c % 16) :: r) = some (encodeRune c, r) := by
    simp only [unicodeEscape, getu4_hexDigits hc]
    rw [if_neg (by omega)]
  simp [escapeU, parseStr, escapeSequence, hesc]

/-- The Go decoder reads a pair of surrogates as one character. -/
theorem parseStr_pair {u v : Nat} (hu : 0xD800 ≤ u ∧ u < 0xDC00) (hv : 0xDC00 ≤ v ∧ v < 0xE000)
    (n : Nat) (r : Bytes) :
    parseStr (n + 1) (escapeU u ++ (escapeU v ++ r)) = (parseStr n r).map fun p =>
      (encodeRune ((u - 0xD800) * 1024 + (v - 0xDC00) + 0x10000) ++ p.1, p.2) := by
  have hlow : lowSurrogate (escapeU v ++ r) = some (v, r) := by
    simp only [escapeU, List.cons_append, List.nil_append, lowSurrogate, and_self, if_true,
      getu4_hexDigits (show v < 0x10000 by omega)]
    rw [if_pos hv]
  have hesc : unicodeEscape (hexDigit (u / 4096 % 16) :: hexDigit (u / 256 % 16) ::
      hexDigit (u / 16 % 16) :: hexDigit (u % 16) :: (escapeU v ++ r)) =
      some (encodeRune ((u - 0xD800) * 1024 + (v - 0xDC00) + 0x10000), r) := by
    simp only [unicodeEscape, getu4_hexDigits (show u < 0x10000 by omega), hlow]
    rw [if_pos (by omega), if_pos hu.2]
  rw [show escapeU u = [92, 117, hexDigit (u / 4096 % 16), hexDigit (u / 256 % 16),
    hexDigit (u / 16 % 16), hexDigit (u % 16)] from rfl]
  simp only [List.cons_append, List.nil_append]
  simp [parseStr, escapeSequence, hesc]

/-- The Go decoder reads what `dumps` writes for a character. -/
theorem parseStr_escapeChar {c : Nat} (hc : IsScalar c) (n : Nat) (r : Bytes) :
    parseStr (n + 1) (escapeChar c ++ r) =
      (parseStr n r).map fun p => (encodeRune c ++ p.1, p.2) := by
  obtain ⟨hmax, hsurrogate⟩ := hc
  have hascii (h : c < 0x80) : encodeRune c = [UInt8.ofNat c] := by
    unfold encodeRune
    rw [if_pos h]
  unfold escapeChar
  split_ifs with h1 h2 h3 h4 h5 h6 h7 h8
  · -- the quoted characters, the five short escapes, plain ASCII, one escape, a pair
    rcases h1 with rfl | rfl <;> simp [parseStr, escapeSequence, encodeRune]
  · subst h2
    simp [parseStr, escapeSequence, encodeRune]
  · subst h3
    simp [parseStr, escapeSequence, encodeRune]
  · subst h4
    simp [parseStr, escapeSequence, encodeRune]
  · subst h5
    simp [parseStr, escapeSequence, encodeRune]
  · subst h6
    simp [parseStr, escapeSequence, encodeRune]
  · have hb : (UInt8.ofNat c).toNat = c := toNat_ofNat_of_lt (by omega)
    rw [hascii (by omega)]
    exact parseStr_plain (by omega) (by omega) (by omega) (by omega) n r
  · exact parseStr_escapeU h8 hsurrogate n r
  · rw [List.append_assoc, parseStr_pair (by omega) (by omega)]
    -- the two surrogates carry the code point
    have hcode : (0xD800 + (c - 0x10000) / 1024 - 0xD800) * 1024 +
        (0xDC00 + (c - 0x10000) % 1024 - 0xDC00) + 0x10000 = c := by omega
    rw [hcode]

/-- The segments of well-formed UTF-8 are runes. -/
theorem isRune_of_valid {s : Bytes} (hs : Valid s) : ∀ g ∈ segs s, ∃ c o, g = .rune c o := by
  have hco := segs_toValid s
  rw [show toValid s = s from hs] at hco
  intro g hg
  rw [hco] at hg
  obtain ⟨g', -, rfl⟩ := List.mem_map.mp hg
  cases g' with
  | rune c o => exact ⟨c, o, rfl⟩
  | bad b => exact ⟨0xFFFD, replacement, rfl⟩

theorem codePoints_of_runes {l : List Seg} (h : ∀ g ∈ l, ∃ c o, g = .rune c o) :
    codePoints l = l.map Seg.code := by
  induction l with
  | nil => rfl
  | cons g l ih =>
    obtain ⟨c, o, rfl⟩ := h g (by simp)
    rw [codePoints, ih fun g' hg' => h g' (List.mem_cons_of_mem _ hg')]
    rfl

/-- What the Go decoder makes of the runes of a string. -/
theorem parseStr_dumped (l : List Seg) (hl : ∀ g ∈ l, g.Proper ∧ ∃ c o, g = .rune c o) (n : Nat)
    (hn : l.length < n) (r : Bytes) :
    parseStr n ((l.map Seg.code).flatMap escapeChar ++ 34 :: r) =
      some (l.flatMap Seg.octets, r) := by
  induction l generalizing n with
  | nil =>
    obtain ⟨m, rfl⟩ : ∃ m, n = m + 1 := ⟨n - 1, by simp at hn; omega⟩
    simp [parseStr]
  | cons g l ih =>
    -- the fuel is more than the number of characters left
    obtain ⟨m, rfl⟩ : ∃ m, n = m + 1 := ⟨n - 1, by simp at hn; omega⟩
    obtain ⟨hg, c, o, rfl⟩ := hl g (by simp)
    obtain ⟨hscalar, hoct⟩ := isScalar_of_proper hg
    have hrest := ih (fun g' hg' => hl g' (List.mem_cons_of_mem _ hg')) m
      (by simp only [List.length_cons] at hn; omega)
    rw [List.map_cons, List.flatMap_cons, List.flatMap_cons, List.append_assoc]
    show parseStr (m + 1) (escapeChar c ++ _) = _
    rw [parseStr_escapeChar hscalar, hrest, hoct]
    rfl

/-- Every escape is at least one octet long. -/
theorem escapeChar_pos (c : Nat) : 1 ≤ (escapeChar c).length := by
  unfold escapeChar
  split_ifs <;> simp [escapeU]

theorem length_le_dumped (l : List Nat) : l.length ≤ (l.flatMap escapeChar).length := by
  induction l with
  | nil => simp
  | cons c l ih =>
    have hc := escapeChar_pos c
    simp only [List.length_cons, List.flatMap_cons, List.length_append]
    omega

/-- The Go decoder reads back what `json.dumps` writes, with any
    separators. -/
theorem dumpsStyle_readBy {gap : Bytes} (hgap : ∀ b ∈ gap, isWs b = true) :
    (dumpsStyle gap).ReadBy decoder Valid id where
  str s r hs := by
    have hrunes := isRune_of_valid hs
    show parseStr ((codePoints (segs s)).flatMap escapeChar ++ 34 :: r).length
      ((codePoints (segs s)).flatMap escapeChar ++ 34 :: r) = some (s, r)
    have hlen := length_le_dumped (codePoints (segs s))
    rw [codePoints_of_runes hrunes] at hlen ⊢
    have hread := parseStr_dumped (segs s) (fun g hg => ⟨segs_proper s g hg, hrunes g hg⟩)
      (((segs s).map Seg.code).flatMap escapeChar ++ 34 :: r).length (by
        rw [List.length_map] at hlen
        simp only [List.length_append, List.length_cons]
        omega) r
    rw [hread, segs_flatMap_octets]
  other l r hl hr := encoderStyle_readBy.other l r hl hr
  gap := hgap

/-! ## What Go writes, Python reads -/

/-- With fuel for its length, the scanner reads the text as `p`. -/
def Scans (s : Bytes) (p : Bytes × Bytes) : Prop := ∀ n, s.length ≤ n → scanString n s = some p

theorem scans_quote (r : Bytes) : Scans (34 :: r) ([], r) := by
  intro n hn
  obtain ⟨m, rfl⟩ : ∃ m, n = m + 1 := ⟨n - 1, by simp at hn; omega⟩
  rfl

/-- An octet that stands for itself. -/
theorem Scans.plain {s : Bytes} {p : Bytes × Bytes} (h : Scans s p) {b : UInt8}
    (hlow : 0x20 ≤ b.toNat) (h34 : b ≠ 34) (h92 : b ≠ 92) : Scans (b :: s) (b :: p.1, p.2) := by
  intro n hn
  obtain ⟨m, rfl⟩ : ∃ m, n = m + 1 := ⟨n - 1, by simp at hn; omega⟩
  have hrest := h m (by simp only [List.length_cons] at hn; omega)
  rw [scanString, if_neg h34, if_neg h92, if_neg (by omega), hrest]
  rfl

/-- An escape sequence. -/
theorem Scans.escape {s t o : Bytes} {p : Bytes × Bytes} (h : Scans s p)
    (hesc : scanEscape t = some (o, s)) (hlen : s.length ≤ t.length) :
    Scans (92 :: t) (o ++ p.1, p.2) := by
  intro n hn
  obtain ⟨m, rfl⟩ : ∃ m, n = m + 1 := ⟨n - 1, by simp at hn; omega⟩
  have hrest := h m (by simp only [List.length_cons] at hn; omega)
  rw [scanString, if_neg (by decide), if_pos rfl, hesc]
  dsimp only
  rw [hrest]
  rfl

/-- Octets that stand for themselves. -/
theorem Scans.plains {s o : Bytes} {p : Bytes × Bytes} (h : Scans s p)
    (ho : ∀ b ∈ o, 0x80 ≤ b.toNat) : Scans (o ++ s) (o ++ p.1, p.2) := by
  induction o with
  | nil => exact h
  | cons b o ih =>
    have hb := ho b (by simp)
    have hrest := ih fun b' hb' => ho b' (List.mem_cons_of_mem _ hb')
    refine hrest.plain (by omega) ?_ ?_
    · rintro rfl
      exact absurd hb (by decide)
    · rintro rfl
      exact absurd hb (by decide)

/-- A `\u` escape of a character that is no surrogate. -/
theorem scanEscape_u {a b c d : UInt8} {u : Nat} {s : Bytes}
    (hread : getu4 (a :: b :: c :: d :: s) = some (u, s)) (hu : u < 0xD800 ∨ 0xDFFF < u) :
    scanEscape (117 :: a :: b :: c :: d :: s) = some (encodeRune u, s) := by
  show decodeU (a :: b :: c :: d :: s) = _
  unfold decodeU encodePoint
  rw [hread]
  dsimp only
  rw [if_neg (by omega), if_neg (by omega)]

/-- An escape other than `\u`. -/
theorem scanEscape_ascii {e b : UInt8} {s : Bytes} (he : e ≠ 117)
    (hread : escapeSequence (e :: s) = some ([b], s)) : scanEscape (e :: s) = some ([b], s) := by
  simp only [scanEscape]
  rw [if_neg he, hread]

/-- What the scanner makes of an escape the Go encoder writes for an ASCII
    octet. -/
theorem Scans.escapeAscii {b : UInt8} (hb : b.toNat < 0x80) {s : Bytes} {p : Bytes × Bytes}
    (h : Scans s p) : Scans (escapeAscii b ++ s) (b :: p.1, p.2) := by
  have hshort {e : UInt8} : s.length ≤ (e :: s).length := by simp
  unfold Json.escapeAscii
  simp only
  split_ifs with h1 h2 h3 h4 h5 h6 h7
  · have hb' : b = 34 ∨ b = 92 := by
      rcases h1 with h | h
      · left; exact (ofNat_eq h.symm).symm
      · right; exact (ofNat_eq h.symm).symm
    rcases hb' with rfl | rfl
    · exact h.escape (scanEscape_ascii (by decide) rfl) hshort
    · exact h.escape (scanEscape_ascii (by decide) rfl) hshort
  · obtain rfl : b = 8 := (ofNat_eq h2.symm).symm
    exact h.escape (scanEscape_ascii (by decide) rfl) hshort
  · obtain rfl : b = 12 := (ofNat_eq h3.symm).symm
    exact h.escape (scanEscape_ascii (by decide) rfl) hshort
  · obtain rfl : b = 10 := (ofNat_eq h4.symm).symm
    exact h.escape (scanEscape_ascii (by decide) rfl) hshort
  · obtain rfl : b = 13 := (ofNat_eq h5.symm).symm
    exact h.escape (scanEscape_ascii (by decide) rfl) hshort
  · obtain rfl : b = 9 := (ofNat_eq h6.symm).symm
    exact h.escape (scanEscape_ascii (by decide) rfl) hshort
  · -- the general escape, four hex digits
    have h0 : hexVal 48 = some 0 := by decide
    have hval : getu4 (48 :: 48 :: hexDigit (b.toNat / 16) :: hexDigit (b.toNat % 16) :: s) =
        some (b.toNat, s) := by
      simp only [getu4, h0, hexVal_hexDigit (show b.toNat / 16 < 16 by omega),
        hexVal_hexDigit (show b.toNat % 16 < 16 by omega), Option.bind_eq_bind, Option.bind_some,
        Option.some.injEq, Prod.mk.injEq, and_true]
      omega
    have henc : encodeRune b.toNat = [b] := by simp [encodeRune, hb]
    have hesc := scanEscape_u hval (by omega)
    rw [henc] at hesc
    exact h.escape hesc (by simp; omega)
  · -- every other character stands for itself
    refine h.plain (by omega) ?_ ?_
    · rintro rfl
      exact h1 (.inl rfl)
    · rintro rfl
      exact h1 (.inr rfl)

/-- What the scanner makes of a segment the Go encoder writes. -/
theorem Scans.escapeSeg {g : Seg} (hg : g.Proper) {s : Bytes} {p : Bytes × Bytes}
    (h : Scans s p) : Scans (escapeSeg g ++ s) (g.coerced ++ p.1, p.2) := by
  cases g with
  | bad b =>
    have hval : getu4 (102 :: 102 :: 102 :: 100 :: s) = some (0xFFFD, s) := by
      simp [getu4, show hexVal 102 = some 15 by decide, show hexVal 100 = some 13 by decide]
    have hesc := scanEscape_u hval (by omega)
    rw [show encodeRune 0xFFFD = replacement by simp [encodeRune, replacement]] at hesc
    exact h.escape hesc (by simp; omega)
  | rune c o =>
    obtain ⟨hscalar, hoct⟩ := isScalar_of_proper hg
    simp only [Json.escapeSeg, Seg.coerced]
    by_cases hc : c < 0x80
    · have ho : o = [UInt8.ofNat c] := by rw [← hoct]; simp [encodeRune, hc]
      rw [if_pos hc, ho]
      have hb : (UInt8.ofNat c).toNat < 0x80 := by
        rw [toNat_ofNat_of_lt (by omega)]
        exact hc
      simpa using h.escapeAscii hb
    · rw [if_neg hc]
      split_ifs with h28
      · -- the two separators, which Go escapes and Python reads back
        have hval : getu4 (50 :: 48 :: 50 :: hexDigit (c % 16) :: s) = some (c, s) := by
          simp only [getu4, show hexVal 50 = some 2 by decide, show hexVal 48 = some 0 by decide,
            hexVal_hexDigit (show c % 16 < 16 by omega), Option.bind_eq_bind, Option.bind_some,
            Option.some.injEq, Prod.mk.injEq, and_true]
          omega
        have hesc := scanEscape_u hval (by omega)
        rw [hoct] at hesc
        exact h.escape hesc (by simp; omega)
      · -- the octets of other characters stand for themselves
        apply h.plains
        rw [← hoct]
        exact encodeRune_high (by omega)

theorem Scans.segs {l : List Seg} (hl : ∀ g ∈ l, g.Proper) {s : Bytes} {p : Bytes × Bytes}
    (h : Scans s p) : Scans (l.flatMap Json.escapeSeg ++ s) (l.flatMap Seg.coerced ++ p.1, p.2) := by
  induction l with
  | nil => exact h
  | cons g l ih =>
    have hrest := ih fun g' hg' => hl g' (List.mem_cons_of_mem _ hg')
    have hg := hrest.escapeSeg (hl g (by simp))
    simpa using hg

/-- A number literal begins no word that Python reads as a number. -/
theorem scanNumber_of_numLit {l : Bytes} (hl : NumLit l) {r : Bytes} (hr : NumEnd r) :
    scanNumber (l ++ r) = some (num l, r) := by
  have hread := hl.read r hr
  have hnone : [lit "NaN", lit "Infinity", lit "-Infinity"].find? (fun w => w.isPrefixOf (l ++ r)) =
      none := by
    rw [List.find?_eq_none]
    intro w hw hprefix
    obtain ⟨t, ht⟩ := List.isPrefixOf_iff_prefix.mp hprefix
    rw [← ht] at hread
    -- the Go decoder reads none of the words
    simp only [List.mem_cons, List.not_mem_nil, or_false] at hw
    rcases hw with rfl | rfl | rfl <;> cases hread
  unfold scanNumber
  rw [hnone]
  dsimp only
  rw [hread]
  rfl

/-- Python's decoder reads back what the Go encoder writes. -/
theorem encoderStyle_readBy_scanner : encoderStyle.ReadBy scanner (fun _ => True) toValid where
  str s r _ := by
    have h := (scans_quote r).segs (segs_proper s)
    have hread := h _ le_rfl
    rw [List.append_nil] at hread
    exact hread
  other l r hl hr := scanNumber_of_numLit hl hr
  gap b hb := by cases hb

/-- A well-formed string is a Python string. -/
theorem isText_of_valid {s : Bytes} (hs : Valid s) : isText (segs s) = true := by
  have hrunes := isRune_of_valid hs
  generalize segs s = l at hrunes
  induction l with
  | nil => rfl
  | cons g l ih =>
    obtain ⟨c, o, rfl⟩ := hrunes g (by simp)
    exact ih fun g' hg' => hrunes g' (List.mem_cons_of_mem _ hg')

/-- A text that begins with two printable ASCII characters is taken for
    UTF-8. -/
theorem decodeText_ascii {a b : UInt8} {t : Bytes} (ha : 0 < a.toNat ∧ a.toNat < 0x80)
    (hb : 0 < b.toNat ∧ b.toNat < 0x80) : decodeText (a :: b :: t) = utf8 (a :: b :: t) := by
  have hne {c : UInt8} (hc : c.toNat = 0 ∨ 0x80 ≤ c.toNat) : (c == a) = false := by
    rw [beq_eq_false_iff_ne]
    rintro rfl
    omega
  have ha0 : a ≠ 0 := by
    rintro rfl
    exact absurd ha.1 (by decide)
  have hb0 : b ≠ 0 := by
    rintro rfl
    exact absurd hb.1 (by decide)
  -- no byte order mark begins with the first of them
  unfold decodeText
  simp only [List.isPrefixOf, hne (c := 0x00) (by decide), hne (c := 0xFF) (by decide),
    hne (c := 0xFE) (by decide), hne (c := 0xEF) (by decide), Bool.false_and, Bool.false_eq_true,
    if_false]
  match t with
  | [] => simp [ha0, hb0]
  | [c] => rfl
  | c :: d :: t => simp [ha0, hb0]

/-- `json.loads` of an object that Go writes. -/
theorem loads_encode {ms : List (Bytes × Json)} (h : Wf (obj ms)) :
    loads (encode (obj ms)) = some (coerced (obj ms)) := by
  have htext : decodeText (encode (obj ms)) = some (encode (obj ms)) := by
    have hutf8 : utf8 (encode (obj ms)) = some (encode (obj ms)) := by
      unfold utf8
      rw [if_pos (isText_of_valid (valid_encode h))]
    rw [← hutf8]
    cases ms with
    | nil => exact decodeText_ascii (by decide) (by decide)
    | cons m ms => exact decodeText_ascii (by decide) (by decide)
  unfold loads
  rw [htext, Option.bind_some, encode_eq_write, coerced_eq_mapTexts]
  exact read_write encoderStyle_readBy_scanner h (allTexts_true _)

/-- Go's decoder on what `json.dumps` writes. -/
theorem parse_dumpsStyle {gap : Bytes} (hgap : ∀ b ∈ gap, isWs b = true) {j : Json} (h : Wf j)
    (hj : AllTexts Valid j) : parse (write (dumpsStyle gap) j) = some j := by
  rw [parse_eq, read_write (dumpsStyle_readBy hgap) h hj, mapTexts_eq_self (f := id) (fun _ _ => rfl) j hj]

/-! ## Base64 across the languages -/

/-- One character of a group. -/
theorem a2b_sextet {n : Nat} (hn : n < 64) (quad pads left : Nat) (t : Bytes) :
    a2b quad pads left (Base64.encodeSextet n :: t) =
      if quad = 0 then a2b 1 0 n t
      else if quad = 1 then (a2b 2 0 (n % 16) t).map (UInt8.ofNat (left * 4 + n / 16) :: ·)
      else if quad = 2 then (a2b 3 0 (n % 4) t).map (UInt8.ofNat (left * 16 + n / 4) :: ·)
      else (a2b 0 0 0 t).map (UInt8.ofNat (left * 64 + n) :: ·) := by
  rw [a2b, if_neg (Base64.encodeSextet_ne_pad hn), Base64.decodeSextet_encodeSextet hn]

theorem a2b_encode : ∀ s : Bytes, a2b 0 0 0 (Base64.encode s) = some s
  | [] => rfl
  | [a] => by
    have ha := UInt8.toNat_lt a
    -- two octets are missing from the last group
    have hends : a2b 2 0 (a.toNat % 4 * 16 % 16) [Base64.pad, Base64.pad] = some [] := by
      simp [a2b]
    simp only [Base64.encode]
    rw [a2b_sextet (by omega), if_pos rfl, a2b_sextet (by omega), if_neg (by decide), if_pos rfl,
      hends]
    have hbits : a.toNat / 4 * 4 + a.toNat % 4 * 16 / 16 = a.toNat := by omega
    rw [hbits, Option.map_some, ofNat_eq rfl]
  | [a, b] => by
    have ha := UInt8.toNat_lt a
    have hb := UInt8.toNat_lt b
    -- one octet is missing from the last group
    have hends : a2b 3 0 (b.toNat % 16 * 4 % 4) [Base64.pad] = some [] := by
      simp [a2b]
    simp only [Base64.encode]
    rw [a2b_sextet (by omega), if_pos rfl, a2b_sextet (by omega), if_neg (by decide), if_pos rfl,
      a2b_sextet (by omega), if_neg (by decide), if_neg (by decide), if_pos rfl, hends]
    have hfst : a.toNat / 4 * 4 + (a.toNat % 4 * 16 + b.toNat / 16) / 16 = a.toNat := by omega
    have hsnd : (a.toNat % 4 * 16 + b.toNat / 16) % 16 * 16 + b.toNat % 16 * 4 / 4 = b.toNat := by
      omega
    rw [hfst, hsnd, Option.map_some, Option.map_some, ofNat_eq rfl, ofNat_eq rfl]
  | a :: b :: c :: t => by
    have ha := UInt8.toNat_lt a
    have hb := UInt8.toNat_lt b
    have hc := UInt8.toNat_lt c
    simp only [Base64.encode]
    rw [a2b_sextet (by omega), if_pos rfl, a2b_sextet (by omega), if_neg (by decide), if_pos rfl,
      a2b_sextet (by omega), if_neg (by decide), if_neg (by decide), if_pos rfl,
      a2b_sextet (by omega), if_neg (by decide), if_neg (by decide), if_neg (by decide),
      a2b_encode t]
    -- the three octets, put together from four sextets
    have hfst : a.toNat / 4 * 4 + (a.toNat % 4 * 16 + b.toNat / 16) / 16 = a.toNat := by omega
    have hsnd : (a.toNat % 4 * 16 + b.toNat / 16) % 16 * 16 +
        (b.toNat % 16 * 4 + c.toNat / 64) / 4 = b.toNat := by omega
    have hthd : (b.toNat % 16 * 4 + c.toNat / 64) % 4 * 64 + c.toNat % 64 = c.toNat := by omega
    rw [hfst, hsnd, hthd, Option.map_some, Option.map_some, Option.map_some, ofNat_eq rfl,
      ofNat_eq rfl, ofNat_eq rfl]

/-- Python decodes what Go encodes. -/
theorem b64decode_encode (s : Bytes) : b64decode (Base64.encode s) = some s := by
  unfold b64decode
  rw [if_pos, a2b_encode]
  rw [List.all_eq_true]
  intro b hb
  have hascii := Base64.encode_ascii hb
  simp only [decide_eq_true_eq]
  omega

end HopVault.Python
