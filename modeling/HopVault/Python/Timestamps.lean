import HopVault.Framework.Calendar
import HopVault.Framework.Decimal

/-! # Timestamps of the experiments

    The two formats of `time.strftime` the experiments write times in, of
    rows and of files, and `datetime.strptime`, which reads the first. A
    clock is in microseconds from 1970. -/

namespace HopVault.Python

open Framework Framework.Utf8 Framework.Decimal Framework.Calendar

/-! ## Writing -/

/-- The seconds from the year 1 to 1970. -/
def epochSeconds : Nat := 719162 * 86400

/-- `time.gmtime` at a time of the clock. -/
def gmtime (now : Nat) : DateTime := .ofSeconds (now / 10 ^ 6 + epochSeconds)

/-- A number in so many digits. -/
def padded : (width n : Nat) → Bytes
  | 0, _ => []
  | width + 1, n => padded width (n / 10) ++ [UInt8.ofNat (48 + n % 10)]

/-- `time.strftime("%Y-%m-%dT%H:%M:%S", t)`. -/
def formatRowTime (t : DateTime) : Bytes :=
  digits t.date.year ++ 45 :: padded 2 t.date.month ++ 45 :: padded 2 t.date.day ++
    84 :: padded 2 t.hour ++ 58 :: padded 2 t.minute ++ 58 :: padded 2 t.second

/-! ## Reading -/

/-- An item of a format, as `_strptime` makes a regular expression of it: a
    number, with all the ways to read one, or a character. -/
inductive Item where
  | number (parse : Bytes → List (Nat × Bytes))
  | char (accepts : UInt8 → Bool)

/-- The ways to match the items at the beginning of a text, in the order in
    which they are tried. -/
def matchItems : List Item → Bytes → List (List Nat × Bytes)
  | [], s => [([], s)]
  | .number parse :: items, s =>
    (parse s).flatMap fun r => (matchItems items r.2).map fun m => (r.1 :: m.1, m.2)
  | .char _ :: _, [] => []
  | .char accepts :: items, b :: s => if accepts b then matchItems items s else []

def digitValue (b : UInt8) : Nat := b.toNat - 48

/-- A number of two digits between `low` and `high`. -/
def twoDigits (low high : Nat) : Bytes → List (Nat × Bytes)
  | a :: b :: s =>
    let n := 10 * digitValue a + digitValue b
    if isDigit a ∧ isDigit b ∧ low ≤ n ∧ n ≤ high then [(n, s)] else []
  | _ => []

def oneDigit (low : Nat) : Bytes → List (Nat × Bytes)
  | a :: s => if isDigit a ∧ low ≤ digitValue a then [(digitValue a, s)] else []
  | [] => []

def number (low high : Nat) (s : Bytes) : List (Nat × Bytes) := twoDigits low high s ++ oneDigit low s

/-- `%Y`: four digits. -/
def yearItem : Bytes → List (Nat × Bytes)
  | a :: b :: c :: d :: s =>
    if isDigit a ∧ isDigit b ∧ isDigit c ∧ isDigit d then [(value [a, b, c, d], s)] else []
  | _ => []

/-- `%d`: the day may stand after a space. -/
def dayItem (s : Bytes) : List (Nat × Bytes) :=
  number 1 31 s ++
    match s with
    | 32 :: s => oneDigit 1 s
    | _ => []

/-- `"%Y-%m-%dT%H:%M:%S"`, in which the letter may have either case. -/
def rowTimeItems : List Item :=
  [.number yearItem, .char (· == 45), .number (number 1 12), .char (· == 45), .number dayItem,
   .char fun b => b == 84 || b == 116, .number (number 0 23), .char (· == 58),
   .number (number 0 59), .char (· == 58), .number (number 0 61)]

/-- `datetime.strptime(text, "%Y-%m-%dT%H:%M:%S")`; `none` for a
    `ValueError`. -/
def strptime (text : Bytes) : Option DateTime :=
  match (matchItems rowTimeItems text).head? with
  | some ([year, month, day, hour, minute, second], []) =>
    let t : DateTime := ⟨⟨year, month, day⟩, hour, minute, second⟩
    if t.Valid then some t else none
  | _ => none

/-! ## Round trip -/

theorem padded_two (n : Nat) :
    padded 2 n = [UInt8.ofNat (48 + n / 10 % 10), UInt8.ofNat (48 + n % 10)] := rfl

theorem digits_year {year : Nat} (h : 1000 ≤ year) (h' : year ≤ 9999) : digits year = padded 4 year := by
  rw [digits_of_ge (by omega), digits_of_ge (by omega), digits_of_ge (by omega),
    digits_of_lt (by omega)]
  show _ = ((([] ++ [_]) ++ [_]) ++ [_]) ++ [_]
  rw [Nat.mod_eq_of_lt (show year / 10 / 10 / 10 < 10 by omega)]
  rfl

theorem toNat_digit_octet {n : Nat} (h : n < 10) : (UInt8.ofNat (48 + n)).toNat = 48 + n := by
  rw [UInt8.toNat_ofNat_of_lt' (by simp only [UInt8.size]; omega)]

theorem isDigit_octet {n : Nat} (h : n < 10) : isDigit (UInt8.ofNat (48 + n)) = true := by
  unfold isDigit
  rw [toNat_digit_octet h]
  simp
  omega

theorem digitValue_octet {n : Nat} (h : n < 10) : digitValue (UInt8.ofNat (48 + n)) = n := by
  unfold digitValue
  rw [toNat_digit_octet h]
  omega

variable {items : List Item} {s rest : Bytes} {n : Nat}

theorem matchItems_number {parse : Bytes → List (Nat × Bytes)} {ns : List Nat} {left : Bytes}
    (hparse : (parse s).head? = some (n, rest))
    (hrest : (matchItems items rest).head? = some (ns, left)) :
    (matchItems (.number parse :: items) s).head? = some (n :: ns, left) := by
  obtain ⟨ways, hways⟩ := List.head?_eq_some_iff.mp hparse
  obtain ⟨others, hothers⟩ := List.head?_eq_some_iff.mp hrest
  rw [matchItems, hways, List.flatMap_cons, hothers, List.map_cons, List.cons_append, List.head?_cons]

/-- Two digits are read first. -/
theorem head_number {low high : Nat} (hlow : low ≤ n) (hhigh : n ≤ high) (hn : n < 100) :
    (number low high (padded 2 n ++ rest)).head? = some (n, rest) := by
  have hten : 10 * (n / 10 % 10) + n % 10 = n := by omega
  have htwo : twoDigits low high (padded 2 n ++ rest) = [(n, rest)] := by
    rw [padded_two]
    simp only [List.cons_append, List.nil_append, twoDigits]
    rw [isDigit_octet (Nat.mod_lt _ (by decide)), isDigit_octet (Nat.mod_lt _ (by decide)),
      digitValue_octet (Nat.mod_lt _ (by decide)), digitValue_octet (Nat.mod_lt _ (by decide)), hten]
    simp [hlow, hhigh]
  rw [number, htwo]
  rfl

theorem head_yearItem (h : 1000 ≤ n) (h' : n ≤ 9999) :
    (yearItem (digits n ++ rest)).head? = some (n, rest) := by
  have hvalue := value_digits n
  rw [digits_year h h'] at hvalue ⊢
  have hdigits : padded 4 n = [UInt8.ofNat (48 + n / 10 / 10 / 10 % 10),
    UInt8.ofNat (48 + n / 10 / 10 % 10), UInt8.ofNat (48 + n / 10 % 10), UInt8.ofNat (48 + n % 10)] := rfl
  have hdigit (k : Nat) : isDigit (UInt8.ofNat (48 + k % 10)) = true :=
    isDigit_octet (Nat.mod_lt _ (by decide))
  rw [hdigits] at hvalue ⊢
  simp only [List.cons_append, List.nil_append, yearItem, hdigit, hvalue, and_self, if_true]
  rfl

theorem head_dayItem (h : 1 ≤ n) (h' : n ≤ 31) :
    (dayItem (padded 2 n ++ rest)).head? = some (n, rest) := by
  unfold dayItem
  rw [List.head?_append, head_number h h' (by omega)]
  rfl

theorem matchItems_char {accepts : UInt8 → Bool} {b : UInt8} (h : accepts b = true) :
    matchItems (.char accepts :: items) (b :: s) = matchItems items s := if_pos h

/-- The fields of a row's time are read one after another. -/
theorem matchItems_formatRowTime {t : DateTime} (h : t.Valid) (hyear : 1000 ≤ t.date.year)
    (hyear' : t.date.year ≤ 9999) : (matchItems rowTimeItems (formatRowTime t)).head? =
      some ([t.date.year, t.date.month, t.date.day, t.hour, t.minute, t.second], []) := by
  obtain ⟨⟨-, hmonth, hmonth', hday, hday'⟩, hhour, hminute, hsecond⟩ := h
  have hday31 := hday'.trans (daysInMonth_le _ _)
  unfold formatRowTime rowTimeItems
  simp only [List.append_assoc, List.cons_append]
  refine matchItems_number (head_yearItem hyear hyear') ?_
  rw [matchItems_char rfl]
  refine matchItems_number (head_number hmonth hmonth' (by omega)) ?_
  rw [matchItems_char rfl]
  refine matchItems_number (head_dayItem hday hday31) ?_
  rw [matchItems_char rfl]
  refine matchItems_number (head_number (Nat.zero_le _) (by omega) (by omega)) ?_
  rw [matchItems_char rfl]
  refine matchItems_number (head_number (Nat.zero_le _) (by omega) (by omega)) ?_
  rw [matchItems_char rfl, ← List.append_nil (padded 2 t.second)]
  exact matchItems_number (head_number (Nat.zero_le _) (by omega) (by omega)) rfl

/-- A row's time is read back. -/
theorem strptime_formatRowTime {t : DateTime} (h : t.Valid) (hyear : 1000 ≤ t.date.year)
    (hyear' : t.date.year ≤ 9999) : strptime (formatRowTime t) = some t := by
  unfold strptime
  rw [matchItems_formatRowTime h hyear hyear']
  exact if_pos h

/-! ## The clock -/

/-- A time before the year 10000. -/
def Clocked (now : Nat) : Prop := now < 253402300800 * 10 ^ 6

theorem valid_gmtime (now : Nat) : (gmtime now).Valid := DateTime.valid_ofSeconds _

theorem gmtime_year {now : Nat} (h : Clocked now) :
    1970 ≤ (gmtime now).date.year ∧ (gmtime now).date.year ≤ 9999 := by
  have hlast : now / 10 ^ 6 + epochSeconds ≤ 253402300799 + epochSeconds := by
    unfold Clocked at h
    omega
  have hfirst := DateTime.year_ofSeconds_mono (Nat.le_add_left epochSeconds (now / 10 ^ 6))
  have hlast := DateTime.year_ofSeconds_mono hlast
  have hepoch : (DateTime.ofSeconds epochSeconds).date.year = 1970 := by decide +kernel
  have hend : (DateTime.ofSeconds (253402300799 + epochSeconds)).date.year = 9999 := by
    decide +kernel
  rw [hepoch] at hfirst
  rw [hend] at hlast
  exact ⟨hfirst, hlast⟩

theorem strptime_gmtime {now : Nat} (h : Clocked now) :
    strptime (formatRowTime (gmtime now)) = some (gmtime now) := by
  obtain ⟨hfirst, hlast⟩ := gmtime_year h
  exact strptime_formatRowTime (valid_gmtime now) (by omega) hlast

end HopVault.Python
