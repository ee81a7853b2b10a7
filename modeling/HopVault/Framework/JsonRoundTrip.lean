import HopVault.Framework.JsonStyle

/-! # Decoding what an encoder wrote

    The decoder reads the text of a value back, up to coercion of its
    strings to well-formed UTF-8, whatever text follows. Strings are read
    segment by segment; for values encoder and decoder are a writer and a
    reader of `JsonStyle`. -/

namespace Framework.Json

open Utf8 Decimal

/-! ## Strings -/

theorem hexVal_hexDigit {n : Nat} (h : n < 16) : hexVal (hexDigit n) = some n := by
  revert n
  decide

/-- What the reader makes of an escape written for an ASCII octet. -/
theorem parseStr_escapeAscii {b : UInt8} (hb : b.toNat < 0x80) (n : Nat) (r : Bytes) :
    parseStr (n + 1) (escapeAscii b ++ r) = (parseStr n r).map fun p => (b :: p.1, p.2) := by
  unfold escapeAscii
  simp only
  -- one case per escape that the encoder has
  split_ifs with h1 h2 h3 h4 h5 h6 h7
  · have hb' : b = 34 ∨ b = 92 := by
      rcases h1 with h | h
      · left; exact (ofNat_eq h.symm).symm
      · right; exact (ofNat_eq h.symm).symm
    rcases hb' with rfl | rfl <;> simp [parseStr, escapeSequence]
  · obtain rfl : b = 8 := (ofNat_eq h2.symm).symm
    simp [parseStr, escapeSequence]
  · obtain rfl : b = 12 := (ofNat_eq h3.symm).symm
    simp [parseStr, escapeSequence]
  · obtain rfl : b = 10 := (ofNat_eq h4.symm).symm
    simp [parseStr, escapeSequence]
  · obtain rfl : b = 13 := (ofNat_eq h5.symm).symm
    simp [parseStr, escapeSequence]
  · obtain rfl : b = 9 := (ofNat_eq h6.symm).symm
    simp [parseStr, escapeSequence]
  · -- the general `\u00xy` escape
    have hu : b.toNat / 16 * 16 + b.toNat % 16 = b.toNat := by omega
    have h0 : hexVal 48 = some 0 := by decide
    have hval : getu4 (48 :: 48 :: hexDigit (b.toNat / 16) :: hexDigit (b.toNat % 16) :: r)
        = some (b.toNat, r) := by
      simp [getu4, h0, hexVal_hexDigit (show b.toNat / 16 < 16 by omega),
        hexVal_hexDigit (show b.toNat % 16 < 16 by omega), hu]
    have henc : encodeRune b.toNat = [b] := by simp [encodeRune, hb]
    have hesc : unicodeEscape
        (48 :: 48 :: hexDigit (b.toNat / 16) :: hexDigit (b.toNat % 16) :: r) = some ([b], r) := by
      simp only [unicodeEscape, hval]
      rw [if_neg (by omega), henc]
    simp [parseStr, escapeSequence, hesc]
  · -- the octet stands for itself
    have h34 : b.toNat ≠ 34 := by omega
    have h92 : b.toNat ≠ 92 := by omega
    have h20 : ¬ b.toNat < 0x20 := by omega
    simp only [List.cons_append, List.nil_append, parseStr, if_neg h34, if_neg h92,
      if_neg h20, decodeRune_ascii hb, List.drop_one, List.tail_cons, List.take_succ_cons,
      List.take_zero]

/-- What the reader makes of a segment. -/
theorem parseStr_escapeSeg {g : Seg} (hg : g.Proper) (n : Nat) (r : Bytes) :
    parseStr (n + 1) (escapeSeg g ++ r) = (parseStr n r).map fun p => (g.coerced ++ p.1, p.2) := by
  cases g with
  | bad b =>
    -- the escape for the replacement character reads as that character
    have hf : hexVal 102 = some 15 := by decide
    have hd : hexVal 100 = some 13 := by decide
    have hval : getu4 (102 :: 102 :: 102 :: 100 :: r) = some (0xFFFD, r) := by
      simp [getu4, hf, hd]
    have hesc : unicodeEscape (102 :: 102 :: 102 :: 100 :: r) = some (replacement, r) := by
      simp [unicodeEscape, hval, encodeRune, replacement]
    simp [escapeSeg, parseStr, escapeSequence, Seg.coerced, hesc]
  | rune c o =>
    obtain ⟨hne, hread⟩ := hg
    have hoct : encodeRune c = o := by
      have h := encodeRune_of_decodeRune (hread [])
      rwa [List.append_nil, List.take_length] at h
    simp only [escapeSeg, Seg.coerced]
    by_cases hc : c < 0x80
    · -- a code point below `80` is one octet
      have ho : o = [UInt8.ofNat c] := by rw [← hoct]; simp [encodeRune, hc]
      have hb : (UInt8.ofNat c).toNat < 0x80 := by
        rw [UInt8.toNat_ofNat_of_lt' (by simp only [UInt8.size]; omega)]; exact hc
      rw [if_pos hc, ho]
      simpa using parseStr_escapeAscii hb n r
    · rw [if_neg hc]
      split_ifs with h28
      · -- U+2028 and U+2029 are escaped
        have h2 : hexVal 50 = some 2 := by decide
        have h0 : hexVal 48 = some 0 := by decide
        have hval : getu4 (50 :: 48 :: 50 :: hexDigit (c % 16) :: r) = some (c, r) := by
          simp only [getu4, h2, h0, hexVal_hexDigit (show c % 16 < 16 by omega)]
          simp only [Option.bind_eq_bind, Option.bind_some, Option.some.injEq, Prod.mk.injEq,
            and_true]
          omega
        have hesc : unicodeEscape (50 :: 48 :: 50 :: hexDigit (c % 16) :: r) = some (o, r) := by
          simp only [unicodeEscape, hval]
          rw [if_neg (by omega), hoct]
        simp [parseStr, escapeSequence, hesc]
      · -- any other rune stands for itself, and its first octet is not ASCII
        obtain ⟨b, t, rfl⟩ : ∃ b t, o = b :: t := by
          cases o with
          | nil => exact absurd rfl hne
          | cons b t => exact ⟨b, t, rfl⟩
        have hself := hread r
        have hlead : 0x80 ≤ b.toNat := by
          by_contra hlt
          rw [List.cons_append, decodeRune_ascii (by omega)] at hself
          simp only [Option.some.injEq, Prod.mk.injEq] at hself
          omega
        rw [List.cons_append] at hself ⊢
        simp only [parseStr, hself]
        rw [if_neg (by omega), if_neg (by omega), if_neg (by omega), ← List.cons_append,
          List.drop_left, List.take_left]

/-- What the reader makes of the segments of a string. -/
theorem parseStr_segs (l : List Seg) (hl : ∀ g ∈ l, g.Proper) (n : Nat) (hn : l.length < n)
    (r : Bytes) :
    parseStr n (l.flatMap escapeSeg ++ 34 :: r) = some (l.flatMap Seg.coerced, r) := by
  induction l generalizing n with
  | nil =>
    obtain ⟨m, rfl⟩ : ∃ m, n = m + 1 := ⟨n - 1, by simp at hn; omega⟩
    simp [parseStr]
  | cons g l ih =>
    obtain ⟨m, rfl⟩ : ∃ m, n = m + 1 := ⟨n - 1, by simp at hn; omega⟩
    have hg := hl g (by simp)
    have hrest := ih (fun g' hg' => hl g' (List.mem_cons_of_mem _ hg')) m
      (by simp only [List.length_cons] at hn; omega)
    rw [List.flatMap_cons, List.flatMap_cons, List.append_assoc, parseStr_escapeSeg hg, hrest]
    rfl

/-- Every escape is at least one octet long. -/
theorem escapeSeg_pos {g : Seg} (hg : g.Proper) : 1 ≤ (escapeSeg g).length := by
  cases g with
  | bad b => simp [escapeSeg]
  | rune c o =>
    have ho : 1 ≤ o.length := List.length_pos_iff.mpr hg.1
    simp only [escapeSeg]
    split_ifs
    · obtain ⟨b, t, rfl⟩ : ∃ b t, o = b :: t := by
        cases o with
        | nil => exact absurd rfl hg.1
        | cons b t => exact ⟨b, t, rfl⟩
      have hb : 1 ≤ (escapeAscii b).length := by
        unfold escapeAscii
        simp only
        split_ifs <;> simp
      rw [List.flatMap_cons, List.length_append]
      omega
    · simp
    · exact ho

theorem length_le_escape (l : List Seg) (hl : ∀ g ∈ l, g.Proper) :
    l.length ≤ (l.flatMap escapeSeg).length := by
  induction l with
  | nil => simp
  | cons g l ih =>
    have hg := escapeSeg_pos (hl g (by simp))
    have h := ih fun g' hg' => hl g' (List.mem_cons_of_mem _ hg')
    rw [List.flatMap_cons, List.length_append, List.length_cons]
    omega

/-- Reading a string literal gives the string back, coerced. -/
theorem parseStr_quote (s r : Bytes) :
    parseStr ((segs s).flatMap escapeSeg ++ 34 :: r).length
      ((segs s).flatMap escapeSeg ++ 34 :: r) = some (toValid s, r) := by
  apply parseStr_segs
  · exact segs_proper s
  · have h := length_le_escape (segs s) (segs_proper s)
    rw [List.length_append, List.length_cons]
    omega

/-! ## Values -/

mutual

/-- A value with its strings and member names coerced to UTF-8. -/
def coerced : Json → Json
  | str s => str (toValid s)
  | arr xs => arr (coercedElems xs)
  | obj ms => obj (coercedMembers ms)
  | j => j

def coercedElems : List Json → List Json
  | [] => []
  | x :: xs => coerced x :: coercedElems xs

def coercedMembers : List (Bytes × Json) → List (Bytes × Json)
  | [] => []
  | (k, v) :: ms => (toValid k, coerced v) :: coercedMembers ms

end

/-- The encoder's style: compact, and with its own escapes. -/
def encoderStyle : Style := ⟨fun s => (segs s).flatMap escapeSeg, []⟩

/-- The decoder as a reader. -/
def decoder : Reader :=
  ⟨fun t => parseStr t.length t, fun s => (parseNum s).map fun p => (num p.1, p.2)⟩

theorem encoderStyle_readBy : encoderStyle.ReadBy decoder (fun _ => True) toValid where
  str s r _ := parseStr_quote s r
  other l r hl hr := by
    show (parseNum (l ++ r)).map _ = _
    rw [hl.read r hr]
    rfl
  gap b hb := by cases hb

mutual

theorem encode_eq_write : ∀ j : Json, encode j = write encoderStyle j
  | null => by unfold encode write; rfl
  | bool true => by unfold encode write; rfl
  | bool false => by unfold encode write; rfl
  | num l => by unfold encode write; rfl
  | str s => by unfold encode write; rfl
  | arr [] => by unfold encode write; rfl
  | arr (x :: xs) => by
    unfold encode write
    rw [encode_eq_write x, encodeElems_eq_write xs]
  | obj [] => by unfold encode write; rfl
  | obj ((k, v) :: ms) => by
    unfold encode write
    rw [encode_eq_write v, encodeMembers_eq_write ms]
    rfl

theorem encodeElems_eq_write : ∀ xs : List Json, encodeElems xs = writeElems encoderStyle xs
  | [] => by unfold encodeElems writeElems; rfl
  | x :: xs => by
    unfold encodeElems writeElems
    rw [encode_eq_write x, encodeElems_eq_write xs]
    rfl

theorem encodeMembers_eq_write : ∀ ms : List (Bytes × Json),
    encodeMembers ms = writeMembers encoderStyle ms
  | [] => by unfold encodeMembers writeMembers; rfl
  | (k, v) :: ms => by
    unfold encodeMembers writeMembers
    rw [encode_eq_write v, encodeMembers_eq_write ms]
    rfl

end

/-- The decoder reads as its reader does. -/
theorem parse_eq_read (n : Nat) :
    (∀ s, parseValue n s = readValue decoder n s) ∧
    (∀ s, parseElems n s = readElems decoder n s) ∧
    (∀ s, parseMembers n s = readMembers decoder n s) := by
  induction n with
  | zero => exact ⟨fun _ => rfl, fun _ => rfl, fun _ => rfl⟩
  | succ n ih =>
    have hvalue : parseValue n = readValue decoder n := funext ih.1
    have helems : parseElems n = readElems decoder n := funext ih.2.1
    have hmembers : parseMembers n = readMembers decoder n := funext ih.2.2
    refine ⟨fun s => ?_, fun s => ?_, fun s => ?_⟩
    · unfold parseValue readValue
      rewrite [helems, hmembers]
      rfl
    · unfold parseElems readElems
      rewrite [hvalue, helems]
      rfl
    · unfold parseMembers readMembers
      rewrite [hvalue, hmembers]
      rfl

/-- So it does with whole texts. -/
theorem parse_eq (s : Bytes) : parse s = decoder.read s := by
  unfold parse parsePrefix Reader.read Reader.readPrefix
  rewrite [(parse_eq_read _).1]
  rfl

mutual

theorem coerced_eq_mapTexts : ∀ j : Json, coerced j = mapTexts toValid j
  | null | bool _ | num _ | str _ => by unfold coerced mapTexts; rfl
  | arr xs => by
    unfold coerced mapTexts
    rw [coercedElems_eq_mapTexts xs]
  | obj ms => by
    unfold coerced mapTexts
    rw [coercedMembers_eq_mapTexts ms]

theorem coercedElems_eq_mapTexts : ∀ xs : List Json, coercedElems xs = mapTextsElems toValid xs
  | [] => rfl
  | x :: xs => by
    unfold coercedElems mapTextsElems
    rw [coerced_eq_mapTexts x, coercedElems_eq_mapTexts xs]

theorem coercedMembers_eq_mapTexts : ∀ ms : List (Bytes × Json),
    coercedMembers ms = mapTextsMembers toValid ms
  | [] => rfl
  | (k, v) :: ms => by
    unfold coercedMembers mapTextsMembers
    rw [coerced_eq_mapTexts v, coercedMembers_eq_mapTexts ms]

end

mutual

theorem allTexts_true : ∀ j : Json, AllTexts (fun _ => True) j
  | null | bool _ | num _ | str _ => by unfold AllTexts; trivial
  | arr xs => by
    unfold AllTexts
    exact allTextsElems_true xs
  | obj ms => by
    unfold AllTexts
    exact allTextsMembers_true ms

theorem allTextsElems_true : ∀ xs : List Json, AllTextsElems (fun _ => True) xs
  | [] => trivial
  | x :: xs => ⟨allTexts_true x, allTextsElems_true xs⟩

theorem allTextsMembers_true : ∀ ms : List (Bytes × Json), AllTextsMembers (fun _ => True) ms
  | [] => trivial
  | (_, v) :: ms => ⟨trivial, allTexts_true v, allTextsMembers_true ms⟩

end

/-- A streaming decoder reads the text of a value, whatever follows. -/
theorem parsePrefix_encode {j : Json} (h : Wf j) {r : Bytes} (hr : NumEnd r) :
    parsePrefix (encode j ++ r) = some (coerced j, r) := by
  rw [encode_eq_write, coerced_eq_mapTexts, parsePrefix, (parse_eq_read _).1]
  exact readPrefix_write encoderStyle_readBy h (allTexts_true j) hr

/-- Reading the text of a value gives the coerced value back. -/
theorem parse_encode {j : Json} (h : Wf j) : parse (encode j) = some (coerced j) := by
  have hp := parsePrefix_encode h numEnd_nil
  rw [List.append_nil] at hp
  simp [parse, hp, skipWs]

/-! ## Integer literals -/

theorem digits1_append {d r : Bytes} (hd : ∀ b ∈ d, isDigit b = true) (hne : d ≠ [])
    (hr : NumEnd r) : digits1 (d ++ r) = some (d, r) := by
  have hstop : r.takeWhile isDigit = [] ∧ r.dropWhile isDigit = r := by
    cases r with
    | nil => exact ⟨rfl, rfl⟩
    | cons b t => simp [(hr b t rfl).1]
  have ht : (d ++ r).takeWhile isDigit = d := by
    rw [List.takeWhile_append_of_pos hd, hstop.1, List.append_nil]
  have hdr : (d ++ r).dropWhile isDigit = r := by
    rw [List.dropWhile_append_of_pos hd, hstop.2]
  rw [digits1, ht, hdr, if_neg hne]

/-- Digits without a leading zero, or a single zero, are read whole. -/
theorem unsigned_append {d r : Bytes} (hd : ∀ b ∈ d, isDigit b = true) (hne : d ≠ [])
    (hz : d = [48] ∨ d.head? ≠ some 48) (hr : NumEnd r) : unsigned (d ++ r) = some (d, r) := by
  -- digits with no leading zero are an integer part, and nothing more follows
  have hint : intPart (d ++ r) = some (d, r) := by
    rcases hz with rfl | hz
    · rfl
    · cases d with
      | nil => exact absurd rfl hne
      | cons b t =>
        have hb : b ≠ 48 := by
          rintro rfl
          exact hz rfl
        have h1 := digits1_append hd hne hr
        rw [List.cons_append] at h1 ⊢
        simp [intPart, hb, h1]
  have hfrac : fracPart r = some ([], r) := by
    cases r with
    | nil => rfl
    | cons b t => simp [fracPart, (hr b t rfl).2.1]
  have hexp : expPart r = some ([], r) := by
    cases r with
    | nil => rfl
    | cons b t => simp [expPart, (hr b t rfl).2.2.1, (hr b t rfl).2.2.2]
  simp [unsigned, hint, hfrac, hexp]

/-- The numeral of an integer is a number literal. -/
theorem numLit_itoa (i : Int) : NumLit (itoa i) := by
  have hdig : ∀ n, ∀ b ∈ digits n, isDigit b = true := fun n b hb => isDigit_of_mem_digits hb
  cases i with
  | ofNat n =>
    have hz : digits n = [48] ∨ (digits n).head? ≠ some 48 := by
      rcases Nat.eq_zero_or_pos n with rfl | hpos
      · left; decide
      · exact .inr (digits_head_ne hpos)
    obtain ⟨b, t, hb⟩ := List.exists_cons_of_ne_nil (digits_ne_nil n)
    have hb1 : isDigit b = true := hdig n b (by rw [hb]; simp)
    have h45 : b ≠ 45 := digit_ne hb1 (by decide)
    -- the first octet is a digit, so no sign is read
    refine ⟨⟨b, t, hb, .inr hb1⟩, fun r hr => ?_⟩
    have hu := unsigned_append (hdig n) (digits_ne_nil n) hz hr
    show parseNum (digits n ++ r) = some (digits n, r)
    rw [hb, List.cons_append] at hu ⊢
    simp [parseNum, h45, hu]
  | negSucc n =>
    refine ⟨⟨45, _, rfl, .inl rfl⟩, fun r hr => ?_⟩
    have hu := unsigned_append (hdig (n + 1)) (digits_ne_nil _) (.inr (digits_head_ne (by omega))) hr
    simp [itoa, parseNum, hu]

/-! ## The encoder writes well-formed UTF-8 -/

theorem digits1_ascii {s p q : Bytes} (h : digits1 s = some (p, q)) : ∀ b ∈ p, b.toNat < 0x80 := by
  unfold digits1 at h
  split_ifs at h
  obtain ⟨rfl, -⟩ := Prod.mk.inj (Option.some.inj h)
  intro b hb
  have hdigit := List.all_eq_true.mp List.all_takeWhile b hb
  unfold isDigit at hdigit
  have := of_decide_eq_true hdigit
  omega

theorem intPart_ascii {s p q : Bytes} (h : intPart s = some (p, q)) : ∀ b ∈ p, b.toNat < 0x80 := by
  cases s with
  | nil => cases h
  | cons c t =>
    unfold intPart at h
    dsimp only at h
    by_cases hc : c = 48
    · rw [if_pos hc] at h
      obtain ⟨rfl, -⟩ := Prod.mk.inj (Option.some.inj h)
      simp
    · rw [if_neg hc] at h
      exact digits1_ascii h

theorem fracPart_ascii {s p q : Bytes} (h : fracPart s = some (p, q)) :
    ∀ b ∈ p, b.toNat < 0x80 := by
  cases s with
  | nil =>
    obtain ⟨rfl, -⟩ := Prod.mk.inj (Option.some.inj h)
    simp
  | cons c t =>
    unfold fracPart at h
    dsimp only at h
    -- a fraction is a point and digits
    by_cases hc : c = 46
    · rw [if_pos hc] at h
      obtain ⟨d, hd, hp⟩ := Option.map_eq_some_iff.mp h
      obtain ⟨rfl, -⟩ := Prod.mk.inj hp
      intro b hb
      rcases List.mem_cons.mp hb with rfl | hb
      · decide
      · exact digits1_ascii hd b hb
    · rw [if_neg hc] at h
      obtain ⟨rfl, -⟩ := Prod.mk.inj (Option.some.inj h)
      simp

theorem expSign_ascii (s : Bytes) : ∀ b ∈ (expSign s).1, b.toNat < 0x80 := by
  cases s with
  | nil => simp [expSign]
  | cons c t =>
    unfold expSign
    dsimp only
    by_cases hc : c = 43 ∨ c = 45
    · rw [if_pos hc]
      rcases hc with rfl | rfl <;> simp
    · rw [if_neg hc]
      simp

theorem expPart_ascii {s p q : Bytes} (h : expPart s = some (p, q)) :
    ∀ b ∈ p, b.toNat < 0x80 := by
  cases s with
  | nil =>
    obtain ⟨rfl, -⟩ := Prod.mk.inj (Option.some.inj h)
    simp
  | cons c t =>
    unfold expPart at h
    dsimp only at h
    -- an exponent is a letter, a sign and digits
    by_cases hc : c = 101 ∨ c = 69
    · rw [if_pos hc] at h
      obtain ⟨d, hd, hp⟩ := Option.map_eq_some_iff.mp h
      obtain ⟨rfl, -⟩ := Prod.mk.inj hp
      intro b hb
      rcases List.mem_cons.mp hb with rfl | hb
      · rcases hc with rfl | rfl <;> decide
      · rcases List.mem_append.mp hb with hb | hb
        · exact expSign_ascii t b hb
        · exact digits1_ascii hd b hb
    · rw [if_neg hc] at h
      obtain ⟨rfl, -⟩ := Prod.mk.inj (Option.some.inj h)
      simp

theorem unsigned_ascii {s p q : Bytes} (h : unsigned s = some (p, q)) :
    ∀ b ∈ p, b.toNat < 0x80 := by
  unfold unsigned at h
  simp only [Option.bind_eq_bind, Option.bind_eq_some_iff, Prod.exists, Option.some.injEq,
    Prod.mk.injEq] at h
  obtain ⟨i, s₁, hi, f, s₂, hf, e, s₃, he, rfl, -⟩ := h
  intro b hb
  rcases List.mem_append.mp hb with hb | hb
  · rcases List.mem_append.mp hb with hb | hb
    · exact intPart_ascii hi b hb
    · exact fracPart_ascii hf b hb
  · exact expPart_ascii he b hb

/-- A number literal is ASCII. -/
theorem NumLit.ascii {l : Bytes} (hl : NumLit l) : ∀ b ∈ l, b.toNat < 0x80 := by
  have hread := hl.read [] numEnd_nil
  rw [List.append_nil] at hread
  obtain ⟨c, t, rfl, -⟩ := hl.head
  unfold parseNum at hread
  dsimp only at hread
  -- with a minus sign or without one
  by_cases hc : c = 45
  · rw [if_pos hc] at hread
    obtain ⟨d, hd, hp⟩ := Option.map_eq_some_iff.mp hread
    obtain ⟨hp, -⟩ := Prod.mk.inj hp
    intro b hb
    rw [← hp] at hb
    rcases List.mem_cons.mp hb with rfl | hb
    · decide
    · exact unsigned_ascii hd b hb
  · rw [if_neg hc] at hread
    exact unsigned_ascii hread

theorem valid_quote {st : Style} (hbody : ∀ s, Valid (st.body s)) (s : Bytes) :
    Valid (st.quote s) :=
  .cons (by decide) ((hbody s).append (valid_lit (by decide)))

mutual

/-- A text is well formed when its strings are. -/
theorem valid_write {st : Style} (hbody : ∀ s, Valid (st.body s)) (hgap : Valid st.gap) :
    ∀ j : Json, Wf j → Valid (write st j)
  | null, _ => valid_lit (s := lit "null") (by decide)
  | bool true, _ => valid_lit (s := lit "true") (by decide)
  | bool false, _ => valid_lit (s := lit "false") (by decide)
  | num _, h => valid_ascii (NumLit.ascii h)
  | str s, _ => valid_quote hbody s
  | arr [], _ => valid_lit (s := [91, 93]) (by decide)
  | arr (x :: xs), h =>
    .cons (by decide) ((valid_write hbody hgap x h.1).append
      (valid_writeElems hbody hgap xs h.2))
  | obj [], _ => valid_lit (s := [123, 125]) (by decide)
  | obj ((k, v) :: ms), h =>
    .cons (by decide) ((valid_quote hbody k).append (.cons (by decide)
      (hgap.append ((valid_write hbody hgap v h.1).append
        (valid_writeMembers hbody hgap ms h.2)))))

theorem valid_writeElems {st : Style} (hbody : ∀ s, Valid (st.body s)) (hgap : Valid st.gap) :
    ∀ xs : List Json, WfElems xs → Valid (writeElems st xs)
  | [], _ => valid_lit (s := [93]) (by decide)
  | x :: xs, h =>
    .cons (by decide) (hgap.append ((valid_write hbody hgap x h.1).append
      (valid_writeElems hbody hgap xs h.2)))

theorem valid_writeMembers {st : Style} (hbody : ∀ s, Valid (st.body s)) (hgap : Valid st.gap) :
    ∀ ms : List (Bytes × Json), WfMembers ms → Valid (writeMembers st ms)
  | [], _ => valid_lit (s := [125]) (by decide)
  | (k, v) :: ms, h =>
    .cons (by decide) (hgap.append ((valid_quote hbody k).append (.cons (by decide)
      (hgap.append ((valid_write hbody hgap v h.1).append
        (valid_writeMembers hbody hgap ms h.2))))))

end

theorem hexDigit_ascii {n : Nat} (h : n < 16) : (hexDigit n).toNat < 0x80 := by
  revert n
  decide

theorem valid_escapeAscii {b : UInt8} (hb : b.toNat < 0x80) : Valid (escapeAscii b) := by
  have h1 := hexDigit_ascii (n := b.toNat / 16) (by omega)
  have h2 := hexDigit_ascii (n := b.toNat % 16) (by omega)
  apply valid_ascii
  unfold escapeAscii
  simp only
  split_ifs <;> simp [hb, h1, h2]

theorem valid_escapeSeg {g : Seg} (hg : g.Proper) : Valid (escapeSeg g) := by
  cases g with
  | bad b => exact valid_lit (s := [92, 117, 102, 102, 102, 100]) (by decide)
  | rune c o =>
    obtain ⟨hne, hread⟩ := hg
    have hself := hread []
    rw [List.append_nil] at hself
    unfold escapeSeg
    dsimp only
    -- as when such a rune is read back: short escapes, the two separators, itself
    by_cases hc : c < 0x80
    · rw [if_pos hc]
      have hoct := encodeRune_of_decodeRune hself
      rw [List.take_length] at hoct
      unfold encodeRune at hoct
      rw [if_pos hc] at hoct
      rw [← hoct]
      have hb : (UInt8.ofNat c).toNat < 0x80 := by
        rw [toNat_ofNat_of_lt (by omega)]
        exact hc
      simpa using valid_escapeAscii hb
    · rw [if_neg hc]
      have hdigit := hexDigit_ascii (n := c % 16) (by omega)
      by_cases h28 : c = 0x2028 ∨ c = 0x2029
      · rw [if_pos h28]
        exact valid_ascii (by simpa using hdigit)
      · rw [if_neg h28]
        exact valid_of_decodeRune hself

/-- The Go encoder writes well-formed UTF-8. -/
theorem valid_encode {j : Json} (h : Wf j) : Valid (encode j) := by
  rw [encode_eq_write]
  apply valid_write _ valid_nil j h
  intro s
  have hsegs (l : List Seg) (hl : ∀ g ∈ l, g.Proper) : Valid (l.flatMap escapeSeg) := by
    induction l with
    | nil => exact valid_nil
    | cons g l ih =>
      rw [List.flatMap_cons]
      exact (valid_escapeSeg (hl g (by simp))).append
        (ih fun g' hg' => hl g' (List.mem_cons_of_mem _ hg'))
  exact hsegs (segs s) (segs_proper s)

end Framework.Json
