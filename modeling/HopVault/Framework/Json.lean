import HopVault.Framework.Decimal

/-! # JSON texts

    JSON values over byte strings, the compact text an encoder writes for
    them (`<`, `>`, `&`, U+2028 and U+2029 escaped, octets that are not
    well-formed UTF-8 written as `\ufffd`) and a decoder that reads one
    value off the front of a text.

    Numbers are kept as the literal they were written with. The decoder's
    recursion is bounded by a fuel argument; `parsePrefix` gives it the
    length of the text, which is always enough. -/

namespace Framework

/-- A JSON value. -/
inductive Json where
  | null
  | bool (b : Bool)
  | num (literal : Bytes)
  | str (s : Bytes)
  | arr (xs : List Json)
  | obj (ms : List (Bytes × Json))
  deriving Repr

namespace Json

open Utf8 Decimal

/-! ## Writing -/

/-- A lower-case hexadecimal digit. -/
def hexDigit (n : Nat) : UInt8 := if n < 10 then UInt8.ofNat (48 + n) else UInt8.ofNat (87 + n)

/-- An ASCII octet inside a string literal. -/
def escapeAscii (b : UInt8) : Bytes :=
  let x := b.toNat
  if x = 34 ∨ x = 92 then [92, b]
  else if x = 8 then [92, 98]
  else if x = 12 then [92, 102]
  else if x = 10 then [92, 110]
  else if x = 13 then [92, 114]
  else if x = 9 then [92, 116]
  else if x < 0x20 ∨ x = 38 ∨ x = 60 ∨ x = 62 then
    [92, 117, 48, 48, hexDigit (x / 16), hexDigit (x % 16)]
  else [b]

/-- A segment inside a string literal. -/
def escapeSeg : Seg → Bytes
  | .rune c o =>
    if c < 0x80 then o.flatMap escapeAscii
    else if c = 0x2028 ∨ c = 0x2029 then [92, 117, 50, 48, 50, hexDigit (c % 16)]
    else o
  | .bad _ => [92, 117, 102, 102, 102, 100]

/-- A string literal with its quotes. -/
def quote (s : Bytes) : Bytes := 34 :: ((segs s).flatMap escapeSeg ++ [34])

mutual

/-- The compact text of a value. -/
def encode : Json → Bytes
  | null => lit "null"
  | bool true => lit "true"
  | bool false => lit "false"
  | num l => l
  | str s => quote s
  | arr [] => [91, 93]
  | arr (x :: xs) => 91 :: (encode x ++ encodeElems xs)
  | obj [] => [123, 125]
  | obj ((k, v) :: ms) => 123 :: (quote k ++ 58 :: (encode v ++ encodeMembers ms))

/-- The elements of an array after its first, with the closing bracket. -/
def encodeElems : List Json → Bytes
  | [] => [93]
  | x :: xs => 44 :: (encode x ++ encodeElems xs)

/-- The members of an object after its first, with the closing brace. -/
def encodeMembers : List (Bytes × Json) → Bytes
  | [] => [125]
  | (k, v) :: ms => 44 :: (quote k ++ 58 :: (encode v ++ encodeMembers ms))

end

/-! ## Reading -/

/-- Space, tab, line feed or carriage return. -/
def isWs (b : UInt8) : Bool := b == 32 || b == 9 || b == 10 || b == 13

/-- Skip white space. -/
def skipWs (s : Bytes) : Bytes := s.dropWhile isWs

/-- The value of a hexadecimal digit. -/
def hexVal (b : UInt8) : Option Nat :=
  let x := b.toNat
  if 48 ≤ x ∧ x ≤ 57 then some (x - 48)
  else if 97 ≤ x ∧ x ≤ 102 then some (x - 87)
  else if 65 ≤ x ∧ x ≤ 70 then some (x - 55)
  else none

/-- Four hexadecimal digits. -/
def getu4 : Bytes → Option (Nat × Bytes)
  | a :: b :: c :: d :: t => do
    let i ← hexVal a
    let j ← hexVal b
    let k ← hexVal c
    let l ← hexVal d
    some (i * 4096 + j * 256 + k * 16 + l, t)
  | _ => none

/-- The low half of a surrogate pair, when the text goes on with one. -/
def lowSurrogate : Bytes → Option (Nat × Bytes)
  | a :: b :: t =>
    if a = 92 ∧ b = 117 then
      match getu4 t with
      | some (v, r) => if 0xDC00 ≤ v ∧ v < 0xE000 then some (v, r) else none
      | none => none
    else none
  | _ => none

/-- The octets of a `\u` escape and the text after it: a surrogate pair is
    one rune, a lone surrogate is replaced. -/
def unicodeEscape (t : Bytes) : Option (Bytes × Bytes) :=
  match getu4 t with
  | none => none
  | some (u, r) =>
    if 0xD800 ≤ u ∧ u < 0xE000 then
      match lowSurrogate r with
      | some (v, r') =>
        if u < 0xDC00 then
          some (encodeRune ((u - 0xD800) * 1024 + (v - 0xDC00) + 0x10000), r')
        else some (replacement, r)
      | none => some (replacement, r)
    else some (encodeRune u, r)

/-- The octets of an escape sequence, after its backslash. -/
def escapeSequence : Bytes → Option (Bytes × Bytes)
  | [] => none
  | e :: t =>
    if e = 34 ∨ e = 92 ∨ e = 47 then some ([e], t)
    else if e = 98 then some ([8], t)
    else if e = 102 then some ([12], t)
    else if e = 110 then some ([10], t)
    else if e = 114 then some ([13], t)
    else if e = 116 then some ([9], t)
    else if e = 117 then unicodeEscape t
    else none

/-- A string literal after its opening quote: its octets, coerced to
    well-formed UTF-8, and the text after the closing quote. -/
def parseStr : Nat → Bytes → Option (Bytes × Bytes)
  | 0, _ => none
  | _ + 1, [] => none
  | n + 1, b :: t =>
    let x := b.toNat
    if x = 34 then some ([], t)
    else if x = 92 then
      match escapeSequence t with
      | some (o, r) => (parseStr n r).map fun p => (o ++ p.1, p.2)
      | none => none
    else if x < 0x20 then none
    else
      match decodeRune (b :: t) with
      | some (_, k) =>
        (parseStr n ((b :: t).drop k)).map fun p => ((b :: t).take k ++ p.1, p.2)
      | none => (parseStr n t).map fun p => (replacement ++ p.1, p.2)

/-- One or more digits. -/
def digits1 (s : Bytes) : Option (Bytes × Bytes) :=
  if s.takeWhile isDigit = [] then none else some (s.takeWhile isDigit, s.dropWhile isDigit)

/-- The integer part of a number: a zero, or digits that start with none. -/
def intPart : Bytes → Option (Bytes × Bytes)
  | [] => none
  | b :: t => if b = 48 then some ([48], t) else digits1 (b :: t)

/-- The fraction of a number, when there is one. -/
def fracPart : Bytes → Option (Bytes × Bytes)
  | [] => some ([], [])
  | b :: t =>
    if b = 46 then (digits1 t).map fun p => (46 :: p.1, p.2) else some ([], b :: t)

/-- The sign of an exponent. -/
def expSign : Bytes → Bytes × Bytes
  | [] => ([], [])
  | b :: t => if b = 43 ∨ b = 45 then ([b], t) else ([], b :: t)

/-- The exponent of a number, when there is one. -/
def expPart : Bytes → Option (Bytes × Bytes)
  | [] => some ([], [])
  | b :: t =>
    if b = 101 ∨ b = 69 then
      (digits1 (expSign t).2).map fun p => (b :: ((expSign t).1 ++ p.1), p.2)
    else some ([], b :: t)

/-- An unsigned number. -/
def unsigned (s : Bytes) : Option (Bytes × Bytes) := do
  let (i, s) ← intPart s
  let (f, s) ← fracPart s
  let (e, s) ← expPart s
  some (i ++ f ++ e, s)

/-- A number literal. -/
def parseNum : Bytes → Option (Bytes × Bytes)
  | [] => none
  | b :: t => if b = 45 then (unsigned t).map fun p => (45 :: p.1, p.2) else unsigned (b :: t)

/-- Drop a literal word from the front of a text. -/
def word (w s : Bytes) : Option Bytes := if w.isPrefixOf s then some (s.drop w.length) else none

mutual

/-- A value and the text after it. The limit of `encoding/json` on the depth
    of nesting is left out. -/
def parseValue : Nat → Bytes → Option (Json × Bytes)
  | 0, _ => none
  | n + 1, s =>
    match skipWs s with
    | [] => none
    | b :: t =>
      if b = 123 then
        match skipWs t with
        | [] => none
        | c :: u =>
          if c = 125 then some (obj [], u)
          else (parseMembers n (c :: u)).map fun p => (obj p.1, p.2)
      else if b = 91 then
        match skipWs t with
        | [] => none
        | c :: u =>
          if c = 93 then some (arr [], u)
          else (parseElems n (c :: u)).map fun p => (arr p.1, p.2)
      else if b = 34 then (parseStr t.length t).map fun p => (str p.1, p.2)
      else if b = 110 then (word (lit "null") (b :: t)).map fun r => (null, r)
      else if b = 116 then (word (lit "true") (b :: t)).map fun r => (bool true, r)
      else if b = 102 then (word (lit "false") (b :: t)).map fun r => (bool false, r)
      else (parseNum (b :: t)).map fun p => (num p.1, p.2)

/-- The elements of an array up to its closing bracket. -/
def parseElems : Nat → Bytes → Option (List Json × Bytes)
  | 0, _ => none
  | n + 1, s =>
    match parseValue n s with
    | none => none
    | some (v, r) =>
      match skipWs r with
      | [] => none
      | c :: u =>
        if c = 44 then (parseElems n u).map fun p => (v :: p.1, p.2)
        else if c = 93 then some ([v], u)
        else none

/-- The members of an object up to its closing brace. -/
def parseMembers : Nat → Bytes → Option (List (Bytes × Json) × Bytes)
  | 0, _ => none
  | n + 1, s =>
    match skipWs s with
    | [] => none
    | q :: t =>
      if q = 34 then
        match parseStr t.length t with
        | none => none
        | some (k, r) =>
          match skipWs r with
          | [] => none
          | c :: u =>
            if c = 58 then
              match parseValue n u with
              | none => none
              | some (v, r) =>
                match skipWs r with
                | [] => none
                | c :: u =>
                  if c = 44 then (parseMembers n u).map fun p => ((k, v) :: p.1, p.2)
                  else if c = 125 then some ([(k, v)], u)
                  else none
            else none
      else none

end

/-- Read the first value of a text, as a streaming decoder does. -/
def parsePrefix (s : Bytes) : Option (Json × Bytes) := parseValue (s.length + 1) s

/-- Read a text that is exactly one value. -/
def parse (s : Bytes) : Option Json :=
  match parsePrefix s with
  | some (j, r) => if skipWs r = [] then some j else none
  | none => none

end Json

end Framework
