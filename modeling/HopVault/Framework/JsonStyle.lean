import HopVault.Framework.Json
import Mathlib.Data.List.Basic

/-! # Writers and readers of JSON

    Two encoders may differ in how they escape a string and in the space
    they leave after a separator, and two decoders in what they make of a
    string literal and in the words they take for a number. What remains
    is written and read alike. A reader reads the text of a writer back
    when it reads back its strings and numbers. -/

namespace Framework.Json

open Utf8 Decimal

/-! ## Writing -/

/-- How a writer spells what is free. -/
structure Style where
  /-- The text between the quotes of a string literal. -/
  body : Bytes → Bytes
  /-- The text after a comma or a colon. -/
  gap : Bytes

/-- A string literal. -/
def Style.quote (st : Style) (s : Bytes) : Bytes := 34 :: (st.body s ++ [34])

mutual

/-- The text of a value. -/
def write (st : Style) : Json → Bytes
  | null => lit "null"
  | bool true => lit "true"
  | bool false => lit "false"
  | num l => l
  | str s => st.quote s
  | arr [] => [91, 93]
  | arr (x :: xs) => 91 :: (write st x ++ writeElems st xs)
  | obj [] => [123, 125]
  | obj ((k, v) :: ms) => 123 :: (st.quote k ++ 58 :: (st.gap ++ (write st v ++ writeMembers st ms)))

/-- The elements of an array after its first, with the closing bracket. -/
def writeElems (st : Style) : List Json → Bytes
  | [] => [93]
  | x :: xs => 44 :: (st.gap ++ (write st x ++ writeElems st xs))

/-- The members of an object after its first, with the closing brace. -/
def writeMembers (st : Style) : List (Bytes × Json) → Bytes
  | [] => [125]
  | (k, v) :: ms =>
    44 :: (st.gap ++ (st.quote k ++ 58 :: (st.gap ++ (write st v ++ writeMembers st ms))))

end

/-! ## Reading -/

/-- What a reader makes of strings and numbers. -/
structure Reader where
  /-- A string literal after its opening quote, and the text after it. -/
  str : Bytes → Option (Bytes × Bytes)
  /-- A value that begins with no bracket, no quote and none of the
      letters of `null`, `true` and `false`. -/
  other : Bytes → Option (Json × Bytes)

mutual

/-- A value and the text after it. -/
def readValue (R : Reader) : Nat → Bytes → Option (Json × Bytes)
  | 0, _ => none
  | n + 1, s =>
    match skipWs s with
    | [] => none
    | b :: t =>
      if b = 123 then
        match skipWs t with
        | [] => none
        | c :: u =>
          if c = 125 then some (obj [], u)
          else (readMembers R n (c :: u)).map fun p => (obj p.1, p.2)
      else if b = 91 then
        match skipWs t with
        | [] => none
        | c :: u =>
          if c = 93 then some (arr [], u)
          else (readElems R n (c :: u)).map fun p => (arr p.1, p.2)
      else if b = 34 then (R.str t).map fun p => (str p.1, p.2)
      else if b = 110 then (word (lit "null") (b :: t)).map fun r => (null, r)
      else if b = 116 then (word (lit "true") (b :: t)).map fun r => (bool true, r)
      else if b = 102 then (word (lit "false") (b :: t)).map fun r => (bool false, r)
      else R.other (b :: t)

/-- The elements of an array up to its closing bracket. -/
def readElems (R : Reader) : Nat → Bytes → Option (List Json × Bytes)
  | 0, _ => none
  | n + 1, s =>
    match readValue R n s with
    | none => none
    | some (v, r) =>
      match skipWs r with
      | [] => none
      | c :: u =>
        if c = 44 then (readElems R n u).map fun p => (v :: p.1, p.2)
        else if c = 93 then some ([v], u)
        else none

/-- The members of an object up to its closing brace. -/
def readMembers (R : Reader) : Nat → Bytes → Option (List (Bytes × Json) × Bytes)
  | 0, _ => none
  | n + 1, s =>
    match skipWs s with
    | [] => none
    | q :: t =>
      if q = 34 then
        match R.str t with
        | none => none
        | some (k, r) =>
          match skipWs r with
          | [] => none
          | c :: u =>
            if c = 58 then
              match readValue R n u with
              | none => none
              | some (v, r) =>
                match skipWs r with
                | [] => none
                | c :: u =>
                  if c = 44 then (readMembers R n u).map fun p => ((k, v) :: p.1, p.2)
                  else if c = 125 then some ([(k, v)], u)
                  else none
            else none
      else none

end

/-- Read the first value of a text. -/
def Reader.readPrefix (R : Reader) (s : Bytes) : Option (Json × Bytes) :=
  readValue R (s.length + 1) s

/-- Read a text that is exactly one value. -/
def Reader.read (R : Reader) (s : Bytes) : Option Json :=
  match R.readPrefix s with
  | some (j, r) => if skipWs r = [] then some j else none
  | none => none

/-! ## Values -/

/-- A text a number literal may be followed by. -/
def NumEnd (r : Bytes) : Prop :=
  ∀ b t, r = b :: t → isDigit b = false ∧ b ≠ 46 ∧ b ≠ 101 ∧ b ≠ 69

/-- A number literal the reader takes whole. -/
structure NumLit (l : Bytes) : Prop where
  /-- It starts with a minus sign or a digit. -/
  head : ∃ b t, l = b :: t ∧ (b = 45 ∨ isDigit b = true)
  /-- It is read up to its end. -/
  read : ∀ r, NumEnd r → parseNum (l ++ r) = some (l, r)

mutual

/-- Every number in a value is a literal the reader takes whole. -/
def Wf : Json → Prop
  | num l => NumLit l
  | arr xs => WfElems xs
  | obj ms => WfMembers ms
  | _ => True

def WfElems : List Json → Prop
  | [] => True
  | x :: xs => Wf x ∧ WfElems xs

def WfMembers : List (Bytes × Json) → Prop
  | [] => True
  | (_, v) :: ms => Wf v ∧ WfMembers ms

end

mutual

/-- All strings and member names of a value have a property. -/
def AllTexts (P : Bytes → Prop) : Json → Prop
  | str s => P s
  | arr xs => AllTextsElems P xs
  | obj ms => AllTextsMembers P ms
  | _ => True

def AllTextsElems (P : Bytes → Prop) : List Json → Prop
  | [] => True
  | x :: xs => AllTexts P x ∧ AllTextsElems P xs

def AllTextsMembers (P : Bytes → Prop) : List (Bytes × Json) → Prop
  | [] => True
  | (k, v) :: ms => P k ∧ AllTexts P v ∧ AllTextsMembers P ms

end

mutual

/-- A value with its strings and member names changed. -/
def mapTexts (f : Bytes → Bytes) : Json → Json
  | str s => str (f s)
  | arr xs => arr (mapTextsElems f xs)
  | obj ms => obj (mapTextsMembers f ms)
  | j => j

def mapTextsElems (f : Bytes → Bytes) : List Json → List Json
  | [] => []
  | x :: xs => mapTexts f x :: mapTextsElems f xs

def mapTextsMembers (f : Bytes → Bytes) : List (Bytes × Json) → List (Bytes × Json)
  | [] => []
  | (k, v) :: ms => (f k, mapTexts f v) :: mapTextsMembers f ms

end

theorem wfMembers_iff {ms : List (Bytes × Json)} : WfMembers ms ↔ ∀ m ∈ ms, Wf m.2 := by
  induction ms with
  | nil => simp [WfMembers]
  | cons m ms ih => simp [WfMembers, ih]

theorem allTextsMembers_iff {P : Bytes → Prop} {ms : List (Bytes × Json)} :
    AllTextsMembers P ms ↔ ∀ m ∈ ms, P m.1 ∧ AllTexts P m.2 := by
  induction ms with
  | nil => simp [AllTextsMembers]
  | cons m ms ih => simp [AllTextsMembers, ih, and_assoc]

mutual

/-- A change that leaves the texts of a value alone leaves the value alone. -/
theorem mapTexts_eq_self {f : Bytes → Bytes} {P : Bytes → Prop} (hf : ∀ s, P s → f s = s) :
    ∀ j : Json, AllTexts P j → mapTexts f j = j
  | null, _ | bool _, _ | num _, _ => by unfold mapTexts; rfl
  | str s, h => by rw [mapTexts, hf s h]
  | arr xs, h => by rw [mapTexts, mapTextsElems_eq_self hf xs h]
  | obj ms, h => by rw [mapTexts, mapTextsMembers_eq_self hf ms h]

theorem mapTextsElems_eq_self {f : Bytes → Bytes} {P : Bytes → Prop} (hf : ∀ s, P s → f s = s) :
    ∀ xs : List Json, AllTextsElems P xs → mapTextsElems f xs = xs
  | [], _ => rfl
  | x :: xs, h => by
    rw [mapTextsElems, mapTexts_eq_self hf x h.1, mapTextsElems_eq_self hf xs h.2]

theorem mapTextsMembers_eq_self {f : Bytes → Bytes} {P : Bytes → Prop}
    (hf : ∀ s, P s → f s = s) :
    ∀ ms : List (Bytes × Json), AllTextsMembers P ms → mapTextsMembers f ms = ms
  | [], _ => rfl
  | (k, v) :: ms, h => by
    rw [mapTextsMembers, hf k h.1, mapTexts_eq_self hf v h.2.1, mapTextsMembers_eq_self hf ms h.2.2]

end

mutual

/-- The fuel the reader needs for a value. -/
def size : Json → Nat
  | arr xs => 1 + sizeElems xs
  | obj ms => 1 + sizeMembers ms
  | _ => 1

def sizeElems : List Json → Nat
  | [] => 0
  | x :: xs => 1 + size x + sizeElems xs

def sizeMembers : List (Bytes × Json) → Nat
  | [] => 0
  | (_, v) :: ms => 1 + size v + sizeMembers ms

end

/-! ## First octets -/

theorem digit_ne {b c : UInt8} (hb : isDigit b = true) (hc : isDigit c = false) : b ≠ c := by
  rintro rfl
  rw [hb] at hc
  cases hc

theorem digit_not_ws {b : UInt8} (hb : isDigit b = true) : isWs b = false := by
  simp [isWs, digit_ne hb (show isDigit 32 = false by decide),
    digit_ne hb (show isDigit 9 = false by decide), digit_ne hb (show isDigit 10 = false by decide),
    digit_ne hb (show isDigit 13 = false by decide)]

/-- The first octet of a value's text is no white space and no closing
    bracket. -/
theorem write_head (st : Style) {j : Json} (h : Wf j) :
    ∃ b t, write st j = b :: t ∧ isWs b = false ∧ b ≠ 93 := by
  match j with
  | null => exact ⟨110, lit "ull", by unfold write; decide, by decide, by decide⟩
  | bool true => exact ⟨116, lit "rue", by unfold write; decide, by decide, by decide⟩
  | bool false => exact ⟨102, lit "alse", by unfold write; decide, by decide, by decide⟩
  | str s => exact ⟨34, _, by unfold write; rfl, by decide, by decide⟩
  | arr [] => exact ⟨91, _, by unfold write; rfl, by decide, by decide⟩
  | arr (x :: xs) => exact ⟨91, _, by unfold write; rfl, by decide, by decide⟩
  | obj [] => exact ⟨123, _, by unfold write; rfl, by decide, by decide⟩
  | obj ((k, v) :: ms) => exact ⟨123, _, by unfold write; rfl, by decide, by decide⟩
  | num l =>
    obtain ⟨b, t, rfl, hb⟩ := h.head
    refine ⟨b, t, by unfold write; rfl, ?_⟩
    rcases hb with rfl | hb
    · decide
    · exact ⟨digit_not_ws hb, digit_ne hb (by decide)⟩

@[simp] theorem skipWs_cons {b : UInt8} (h : isWs b = false) (t : Bytes) :
    skipWs (b :: t) = b :: t := by
  simp [skipWs, h]

/-- White space in front of a text is skipped. -/
theorem skipWs_append {pad : Bytes} (hpad : ∀ b ∈ pad, isWs b = true) (s : Bytes) :
    skipWs (pad ++ s) = skipWs s := by
  unfold skipWs
  rw [List.dropWhile_append_of_pos hpad]

theorem numEnd_cons {b : UInt8} (h : isDigit b = false ∧ b ≠ 46 ∧ b ≠ 101 ∧ b ≠ 69) (t : Bytes) :
    NumEnd (b :: t) := by
  intro c u he
  obtain ⟨rfl, rfl⟩ := List.cons.inj he
  exact h

theorem numEnd_nil : NumEnd [] := by
  intro b t h
  cases h

theorem numEnd_writeElems (st : Style) (xs : List Json) (r : Bytes) :
    NumEnd (writeElems st xs ++ r) := by
  cases xs with
  | nil => exact numEnd_cons (by decide) _
  | cons x xs => exact numEnd_cons (by decide) _

theorem numEnd_writeMembers (st : Style) (ms : List (Bytes × Json)) (r : Bytes) :
    NumEnd (writeMembers st ms ++ r) := by
  cases ms with
  | nil => exact numEnd_cons (by decide) _
  | cons m ms => exact numEnd_cons (by decide) _

theorem word_append (w r : Bytes) : word w (w ++ r) = some r := by
  simp [word]

/-- Fuel that covers a positive size is a successor. -/
theorem fuel_succ {k n : Nat} (h : k + 1 ≤ n) : ∃ m, n = m + 1 ∧ k ≤ m :=
  ⟨n - 1, by omega, by omega⟩

/-! ## Reading back -/

/-- The reader reads back what the writer writes: strings with `P` as
    `text` changes them, and numbers as they are. -/
structure Style.ReadBy (st : Style) (R : Reader) (P : Bytes → Prop) (text : Bytes → Bytes) :
    Prop where
  str : ∀ s r, P s → R.str (st.body s ++ 34 :: r) = some (text s, r)
  other : ∀ l r, NumLit l → NumEnd r → R.other (l ++ r) = some (num l, r)
  gap : ∀ b ∈ st.gap, isWs b = true

section

variable {st : Style} {R : Reader} {P : Bytes → Prop} {text : Bytes → Bytes}

/-- White space before a value is skipped. -/
theorem readValue_pad {pad : Bytes} (hpad : ∀ b ∈ pad, isWs b = true) (n : Nat) (s : Bytes) :
    readValue R n (pad ++ s) = readValue R n s := by
  cases n with
  | zero => rfl
  | succ n =>
    unfold readValue
    rw [skipWs_append hpad]

/-- White space before the elements of an array is skipped. -/
theorem readElems_pad {pad : Bytes} (hpad : ∀ b ∈ pad, isWs b = true) (n : Nat) (s : Bytes) :
    readElems R n (pad ++ s) = readElems R n s := by
  cases n with
  | zero => rfl
  | succ n =>
    unfold readElems
    rw [readValue_pad hpad]

/-- White space before a member of an object is skipped. -/
theorem readMembers_pad {pad : Bytes} (hpad : ∀ b ∈ pad, isWs b = true) (n : Nat) (s : Bytes) :
    readMembers R n (pad ++ s) = readMembers R n s := by
  cases n with
  | zero => rfl
  | succ n =>
    unfold readMembers
    rw [skipWs_append hpad]

mutual

/-- **Round trip** for values: reading the text of a value, whatever text
    follows, gives the value back, its strings as the reader reads them. -/
theorem readValue_write (h : st.ReadBy R P text) : ∀ (j : Json), Wf j → AllTexts P j →
    ∀ (n : Nat) (r : Bytes), size j ≤ n → NumEnd r →
    -- the recursion is that of the value; the fuel bounds its size
    readValue R n (write st j ++ r) = some (mapTexts text j, r)
  | null, _, _, n, r, hn, _ => by
    obtain ⟨m, rfl, -⟩ := fuel_succ hn
    have hw := word_append (lit "null") r
    rw [show lit "null" = 110 :: lit "ull" by decide, List.cons_append] at hw
    simp [readValue, write, mapTexts, show isWs 110 = false by decide,
      show lit "null" = 110 :: lit "ull" by decide, hw]
  | bool true, _, _, n, r, hn, _ => by
    obtain ⟨m, rfl, -⟩ := fuel_succ hn
    have hw := word_append (lit "true") r
    rw [show lit "true" = 116 :: lit "rue" by decide, List.cons_append] at hw
    simp [readValue, write, mapTexts, show isWs 116 = false by decide,
      show lit "true" = 116 :: lit "rue" by decide, hw]
  | bool false, _, _, n, r, hn, _ => by
    obtain ⟨m, rfl, -⟩ := fuel_succ hn
    have hw := word_append (lit "false") r
    rw [show lit "false" = 102 :: lit "alse" by decide, List.cons_append] at hw
    simp [readValue, write, mapTexts, show isWs 102 = false by decide,
      show lit "false" = 102 :: lit "alse" by decide, hw]
  | num l, hw, _, n, r, hn, hr => by
    obtain ⟨m, rfl, -⟩ := fuel_succ hn
    obtain ⟨b, t, rfl, hb⟩ := hw.head
    have hread := h.other _ r hw hr
    -- the first octet of a number begins no other value
    have hclass : isWs b = false ∧ b ≠ 123 ∧ b ≠ 91 ∧ b ≠ 34 ∧ b ≠ 110 ∧ b ≠ 116 ∧ b ≠ 102 := by
      rcases hb with rfl | hb
      · decide
      · exact ⟨digit_not_ws hb, digit_ne hb (by decide), digit_ne hb (by decide),
          digit_ne hb (by decide), digit_ne hb (by decide), digit_ne hb (by decide),
          digit_ne hb (by decide)⟩
    obtain ⟨hws, h1, h2, h3, h4, h5, h6⟩ := hclass
    rw [List.cons_append] at hread
    simp [readValue, write, mapTexts, hws, h1, h2, h3, h4, h5, h6, hread]
  | str s, _, hP, n, r, hn, _ => by
    obtain ⟨m, rfl, -⟩ := fuel_succ hn
    have hq := h.str s r hP
    have hsplit : write st (str s) ++ r = 34 :: (st.body s ++ 34 :: r) := by
      simp [write, Style.quote]
    rw [hsplit]
    simp only [readValue, skipWs_cons (show isWs 34 = false by decide), hq, mapTexts]
    rfl
  | arr [], _, _, n, r, hn, _ => by
    obtain ⟨m, rfl, -⟩ := fuel_succ hn
    simp [readValue, write, mapTexts, mapTextsElems, show isWs 91 = false by decide,
      show isWs 93 = false by decide]
  | arr (x :: xs), hw, hP, n, r, hn, _ => by
    obtain ⟨m, rfl, hm⟩ := fuel_succ (show sizeElems (x :: xs) + 1 ≤ n by
      simp only [size] at hn; omega)
    have ih := readElems_write h x xs hw.1 hw.2 hP.1 hP.2 m r (by simpa [sizeElems] using hm)
    -- an element does not begin with a closing bracket
    obtain ⟨b, t, hb, hws, h93⟩ := write_head st hw.1
    rw [hb, List.cons_append] at ih
    have hsplit : write st (arr (x :: xs)) ++ r = 91 :: b :: (t ++ (writeElems st xs ++ r)) := by
      simp [write, hb]
    rw [hsplit]
    simp [readValue, show isWs 91 = false by decide, hws, h93, ih, mapTexts, mapTextsElems]
  | obj [], _, _, n, r, hn, _ => by
    obtain ⟨m, rfl, -⟩ := fuel_succ hn
    simp [readValue, write, mapTexts, mapTextsMembers, show isWs 123 = false by decide,
      show isWs 125 = false by decide]
  | obj ((k, v) :: ms), hw, hP, n, r, hn, _ => by
    obtain ⟨m, rfl, hm⟩ := fuel_succ (show sizeMembers ((k, v) :: ms) + 1 ≤ n by
      simp only [size] at hn; omega)
    have ih := readMembers_write h k v ms hw.1 hw.2 hP m r (by simpa [sizeMembers] using hm)
    have hsplit : write st (obj ((k, v) :: ms)) ++ r = 123 ::
        (st.quote k ++ 58 :: (st.gap ++ (write st v ++ (writeMembers st ms ++ r)))) := by
      simp [write]
    rw [hsplit]
    simp only [Style.quote, List.cons_append, List.append_assoc, List.nil_append] at ih ⊢
    simp [readValue, show isWs 123 = false by decide, show isWs 34 = false by decide, ih,
      mapTexts, mapTextsMembers]
termination_by j => size j
decreasing_by all_goals simp only [size, sizeElems, sizeMembers]; omega

/-- Round trip for the elements of an array. -/
theorem readElems_write (h : st.ReadBy R P text) : ∀ (x : Json) (xs : List Json), Wf x →
    WfElems xs → AllTexts P x → AllTextsElems P xs →
    ∀ (n : Nat) (r : Bytes), 1 + size x + sizeElems xs ≤ n →
    readElems R n (write st x ++ (writeElems st xs ++ r)) =
      some (mapTexts text x :: mapTextsElems text xs, r)
  | x, [], hx, _, hPx, _, n, r, hn => by
    obtain ⟨m, rfl, hm⟩ := fuel_succ (show size x + sizeElems [] + 1 ≤ n by omega)
    have ih := readValue_write h x hx hPx m (writeElems st [] ++ r) (by omega)
      (numEnd_writeElems st _ _)
    simp only [readElems, ih]
    simp [writeElems, show isWs 93 = false by decide, mapTextsElems]
  | x, y :: ys, hx, hys, hPx, hPys, n, r, hn => by
    obtain ⟨m, rfl, hm⟩ := fuel_succ (show size x + sizeElems (y :: ys) + 1 ≤ n by omega)
    have hx' := readValue_write h x hx hPx m (writeElems st (y :: ys) ++ r) (by omega)
      (numEnd_writeElems st _ _)
    have hys' := readElems_write h y ys hys.1 hys.2 hPys.1 hPys.2 m r
      (by simp only [sizeElems] at hm; omega)
    rw [← readElems_pad h.gap] at hys'
    simp only [readElems, hx']
    simp [writeElems, show isWs 44 = false by decide, hys', mapTextsElems]
termination_by x xs => 1 + size x + sizeElems xs
decreasing_by all_goals simp only [sizeElems]; omega

/-- Round trip for the members of an object. -/
theorem readMembers_write (h : st.ReadBy R P text) : ∀ (k : Bytes) (v : Json)
    (ms : List (Bytes × Json)), Wf v → WfMembers ms → AllTextsMembers P ((k, v) :: ms) →
    ∀ (n : Nat) (r : Bytes), 1 + size v + sizeMembers ms ≤ n →
    readMembers R n (st.quote k ++ 58 :: (st.gap ++ (write st v ++ (writeMembers st ms ++ r)))) =
      some ((text k, mapTexts text v) :: mapTextsMembers text ms, r)
  | k, v, [], hv, _, hP, n, r, hn => by
    obtain ⟨m, rfl, hm⟩ := fuel_succ (show size v + sizeMembers [] + 1 ≤ n by omega)
    have ih := readValue_write h v hv hP.2.1 m (writeMembers st [] ++ r) (by omega)
      (numEnd_writeMembers st _ _)
    rw [← readValue_pad h.gap] at ih
    have hk := h.str k (58 :: (st.gap ++ (write st v ++ (writeMembers st [] ++ r)))) hP.1
    simp only [Style.quote, List.cons_append, List.append_assoc, List.nil_append, readMembers,
      skipWs_cons (show isWs 34 = false by decide), hk,
      skipWs_cons (show isWs 58 = false by decide), ih]
    simp [writeMembers, show isWs 125 = false by decide, mapTextsMembers]
  | k, v, (k', v') :: ms, hv, hms, hP, n, r, hn => by
    obtain ⟨m, rfl, hm⟩ := fuel_succ (show size v + sizeMembers ((k', v') :: ms) + 1 ≤ n by omega)
    have hv' := readValue_write h v hv hP.2.1 m (writeMembers st ((k', v') :: ms) ++ r) (by omega)
      (numEnd_writeMembers st _ _)
    rw [← readValue_pad h.gap] at hv'
    have hms' := readMembers_write h k' v' ms hms.1 hms.2 hP.2.2 m r
      (by simp only [sizeMembers] at hm; omega)
    rw [← readMembers_pad h.gap] at hms'
    have hk := h.str k (58 :: (st.gap ++ (write st v ++ (writeMembers st ((k', v') :: ms) ++ r))))
      hP.1
    simp only [Style.quote, List.cons_append, List.append_assoc, List.nil_append, readMembers,
      skipWs_cons (show isWs 34 = false by decide), hk,
      skipWs_cons (show isWs 58 = false by decide), hv'] at hms' ⊢
    simp [writeMembers, Style.quote, show isWs 44 = false by decide, hms', mapTextsMembers]
termination_by _ v ms => 1 + size v + sizeMembers ms
decreasing_by all_goals simp only [sizeMembers]; omega

end

end

/-! ## Fuel -/

mutual

/-- A text is at least as long as the fuel its value needs. -/
theorem size_le_write (st : Style) : ∀ j : Json, Wf j → size j ≤ (write st j).length
  | null, _ => by unfold write; decide
  | bool true, _ => by unfold write; decide
  | bool false, _ => by unfold write; decide
  | num l, h => by
    obtain ⟨b, t, rfl, -⟩ := h.head
    simp [size, write]
  | str s, _ => by simp [size, write, Style.quote]
  | arr [], _ => by simp [size, sizeElems, write]
  | arr (x :: xs), h => by
    have hx := size_le_write st x h.1
    have hxs := sizeElems_lt_write st xs h.2
    simp only [size, sizeElems, write, List.length_cons, List.length_append]
    omega
  | obj [], _ => by simp [size, sizeMembers, write]
  | obj ((k, v) :: ms), h => by
    have hv := size_le_write st v h.1
    have hms := sizeMembers_lt_write st ms h.2
    simp only [size, sizeMembers, write, Style.quote, List.length_cons, List.length_append]
    omega

theorem sizeElems_lt_write (st : Style) : ∀ xs : List Json, WfElems xs →
    sizeElems xs + 1 ≤ (writeElems st xs).length
  | [], _ => by simp [sizeElems, writeElems]
  | x :: xs, h => by
    have hx := size_le_write st x h.1
    have hxs := sizeElems_lt_write st xs h.2
    simp only [sizeElems, writeElems, List.length_cons, List.length_append]
    omega

theorem sizeMembers_lt_write (st : Style) : ∀ ms : List (Bytes × Json), WfMembers ms →
    sizeMembers ms + 1 ≤ (writeMembers st ms).length
  | [], _ => by simp [sizeMembers, writeMembers]
  | (k, v) :: ms, h => by
    have hv := size_le_write st v h.1
    have hms := sizeMembers_lt_write st ms h.2
    simp only [sizeMembers, writeMembers, List.length_cons, List.length_append]
    omega

end

/-- The first value of a text is read back, whatever follows. -/
theorem readPrefix_write {st : Style} {R : Reader} {P : Bytes → Prop} {text : Bytes → Bytes}
    (h : st.ReadBy R P text) {j : Json} (hj : Wf j) (hP : AllTexts P j) {r : Bytes}
    (hr : NumEnd r) : R.readPrefix (write st j ++ r) = some (mapTexts text j, r) := by
  apply readValue_write h j hj hP _ r _ hr
  have hs := size_le_write st j hj
  rw [List.length_append]
  omega

/-- A text that is one value is read back. -/
theorem read_write {st : Style} {R : Reader} {P : Bytes → Prop} {text : Bytes → Bytes}
    (h : st.ReadBy R P text) {j : Json} (hj : Wf j) (hP : AllTexts P j) :
    R.read (write st j) = some (mapTexts text j) := by
  have hp := readPrefix_write h hj hP numEnd_nil
  rw [List.append_nil] at hp
  simp [Reader.read, hp, skipWs]

/-- So is one with white space behind it. -/
theorem read_write_pad {st : Style} {R : Reader} {P : Bytes → Prop} {text : Bytes → Bytes}
    (h : st.ReadBy R P text) {j : Json} (hj : Wf j) (hP : AllTexts P j) {pad : Bytes}
    (hend : NumEnd pad) (hpad : ∀ b ∈ pad, isWs b = true) :
    R.read (write st j ++ pad) = some (mapTexts text j) := by
  have hskip : skipWs pad = [] := by
    have hpad := skipWs_append hpad []
    rw [List.append_nil] at hpad
    exact hpad
  have hp := readPrefix_write h hj hP hend
  simp [Reader.read, hp, hskip]

end Framework.Json
