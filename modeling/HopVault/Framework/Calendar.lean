import Mathlib.Data.List.Lex
import Mathlib.Tactic.SplitIfs

/-! # The Gregorian calendar

    Days and seconds as numbers and as dates. Day 0 is the first of January
    of the year 1; a date is found by taking cycles of 400, 100, 4 and 1
    years out of the number of its day. -/

namespace Framework.Calendar

/-! ## Years -/

/-- February has 29 days. -/
def isLeap (year : Nat) : Bool := year % 4 == 0 && (year % 100 != 0 || year % 400 == 0)

/-- The days from the year 1 to the beginning of the year. -/
def daysBeforeYear (year : Nat) : Nat :=
  (year - 1) * 365 + (year - 1) / 4 - (year - 1) / 100 + (year - 1) / 400

def daysInYear (leap : Bool) : Nat := if leap then 366 else 365

theorem daysBeforeYear_succ {year : Nat} (h : 1 ≤ year) :
    daysBeforeYear (year + 1) = daysBeforeYear year + daysInYear (isLeap year) := by
  obtain ⟨y, rfl⟩ := Nat.exists_eq_add_of_le' h
  have hle : y / 100 ≤ y / 4 := Nat.div_le_div_left (by decide) (by decide)
  unfold daysBeforeYear
  simp only [Nat.add_sub_cancel, Nat.succ_div, Nat.dvd_iff_mod_eq_zero]
  -- the last year is a leap year if it ends a cycle of 4 but none of 100, or one of 400
  by_cases h4 : (y + 1) % 4 = 0
  · by_cases h100 : (y + 1) % 100 = 0
    · by_cases h400 : (y + 1) % 400 = 0
      · have hleap : isLeap (y + 1) = true := by simp [isLeap, h4, h100, h400]
        rw [hleap, if_pos h4, if_pos h100, if_pos h400, daysInYear, if_pos rfl]
        omega
      · have hleap : isLeap (y + 1) = false := by simp [isLeap, h4, h100, h400]
        rw [hleap, if_pos h4, if_pos h100, if_neg h400, daysInYear, if_neg (by decide)]
        omega
    · have h400 : (y + 1) % 400 ≠ 0 := by omega
      have hleap : isLeap (y + 1) = true := by simp [isLeap, h4, h100]
      rw [hleap, if_pos h4, if_neg h100, if_neg h400, daysInYear, if_pos rfl]
      omega
  · have h100 : (y + 1) % 100 ≠ 0 := by omega
    have h400 : (y + 1) % 400 ≠ 0 := by omega
    have hleap : isLeap (y + 1) = false := by simp [isLeap, h4]
    rw [hleap, if_neg h4, if_neg h100, if_neg h400, daysInYear, if_neg (by decide)]
    omega

/-- The year of a day, and how many days of the year are past. -/
def yearOfDay (n : Nat) : Nat × Nat :=
  let n400 := n / 146097
  let n100 := n % 146097 / 36524
  let n4 := n % 146097 % 36524 / 1461
  let n1 := n % 146097 % 36524 % 1461 / 365
  let year := n400 * 400 + n100 * 100 + n4 * 4 + n1 + 1
  -- the last day of a leap year is left over
  if n1 = 4 ∨ n100 = 4 then (year - 1, 365)
  else (year, n % 146097 % 36524 % 1461 % 365)

/-- The days of whole cycles. -/
theorem daysBeforeYear_cycles {a b c d : Nat} (hb : b ≤ 3) (hc : c ≤ 24) (hd : d ≤ 3) :
    daysBeforeYear (a * 400 + b * 100 + c * 4 + d + 1) =
      146097 * a + 36524 * b + 1461 * c + 365 * d := by
  have h4 : (a * 400 + b * 100 + c * 4 + d) / 4 = 100 * a + 25 * b + c := by omega
  have h100 : (a * 400 + b * 100 + c * 4 + d) / 100 = 4 * a + b := by omega
  have h400 : (a * 400 + b * 100 + c * 4 + d) / 400 = a := by omega
  unfold daysBeforeYear
  rw [Nat.add_sub_cancel, h4, h100, h400]
  omega

theorem isLeap_last {a b c : Nat} (hc : c ≤ 23) : isLeap (a * 400 + b * 100 + c * 4 + 4) = true := by
  have h4 : (a * 400 + b * 100 + c * 4 + 4) % 4 = 0 := by omega
  have h100 : (a * 400 + b * 100 + c * 4 + 4) % 100 ≠ 0 := by omega
  simp [isLeap, h4, h100]

theorem isLeap_cycle (a : Nat) : isLeap (a * 400 + 400) = true := by
  have h4 : (a * 400 + 400) % 4 = 0 := by omega
  have h400 : (a * 400 + 400) % 400 = 0 := by omega
  simp [isLeap, h4, h400]

theorem yearOfDay_spec (n : Nat) :
    1 ≤ (yearOfDay n).1 ∧ (yearOfDay n).2 < daysInYear (isLeap (yearOfDay n).1) ∧
      daysBeforeYear (yearOfDay n).1 + (yearOfDay n).2 = n := by
  -- the cycles that fit into the day, and what they leave
  obtain ⟨a, n₁, ha, hn₁, hn⟩ : ∃ a n₁, n / 146097 = a ∧ n % 146097 = n₁ ∧ n = 146097 * a + n₁ :=
    ⟨_, _, rfl, rfl, (Nat.div_add_mod n 146097).symm⟩
  obtain ⟨b, n₂, hb, hn₂, hn₁'⟩ : ∃ b n₂, n₁ / 36524 = b ∧ n₁ % 36524 = n₂ ∧ n₁ = 36524 * b + n₂ :=
    ⟨_, _, rfl, rfl, (Nat.div_add_mod n₁ 36524).symm⟩
  obtain ⟨c, n₃, hc, hn₃, hn₂'⟩ : ∃ c n₃, n₂ / 1461 = c ∧ n₂ % 1461 = n₃ ∧ n₂ = 1461 * c + n₃ :=
    ⟨_, _, rfl, rfl, (Nat.div_add_mod n₂ 1461).symm⟩
  obtain ⟨d, n₄, hd, hn₄, hn₃'⟩ : ∃ d n₄, n₃ / 365 = d ∧ n₃ % 365 = n₄ ∧ n₃ = 365 * d + n₄ :=
    ⟨_, _, rfl, rfl, (Nat.div_add_mod n₃ 365).symm⟩
  unfold yearOfDay
  simp only [ha, hn₁, hb, hn₂, hc, hn₃, hd, hn₄]
  by_cases hlast : d = 4 ∨ b = 4
  · rw [if_pos hlast]
    dsimp only
    rcases hlast with rfl | rfl
    · -- the last day of a cycle of 4 years
      have hb3 : b ≤ 3 := by omega
      have hc23 : c ≤ 23 := by omega
      have hcycles := daysBeforeYear_cycles (a := a) hb3 (hc23.trans (by decide)) (le_refl 3)
      rw [Nat.add_sub_cancel, isLeap_last hc23]
      rw [show a * 400 + b * 100 + c * 4 + 3 + 1 = a * 400 + b * 100 + c * 4 + 4 from rfl] at hcycles
      refine ⟨by omega, by decide, ?_⟩
      omega
    · -- the last day of a cycle of 400 years
      obtain rfl : c = 0 := by omega
      obtain rfl : d = 0 := by omega
      have hcycles := daysBeforeYear_cycles (a := a) (le_refl 3) (le_refl 24) (le_refl 3)
      rw [show a * 400 + 3 * 100 + 24 * 4 + 3 + 1 = a * 400 + 400 from by omega] at hcycles
      rw [show a * 400 + 4 * 100 + 0 * 4 + 0 + 1 - 1 = a * 400 + 400 from by omega, isLeap_cycle]
      refine ⟨by omega, by decide, ?_⟩
      omega
  · rw [if_neg hlast]
    dsimp only
    have hcycles := daysBeforeYear_cycles (a := a) (b := b) (c := c) (d := d) (by omega) (by omega)
      (by omega)
    refine ⟨by omega, ?_, by omega⟩
    unfold daysInYear
    split_ifs <;> omega

/-- Later years begin later. -/
theorem daysBeforeYear_mono {y y' : Nat} (h1 : 1 ≤ y) (h : y ≤ y') :
    daysBeforeYear y ≤ daysBeforeYear y' := by
  induction y', h using Nat.le_induction with
  | base => exact le_refl _
  | succ y' hle ih =>
    rw [daysBeforeYear_succ (h1.trans hle)]
    omega

/-! ## Months -/

def daysInMonth (leap : Bool) (month : Nat) : Nat :=
  [31, if leap then 29 else 28, 31, 30, 31, 30, 31, 31, 30, 31, 30, 31].getD (month - 1) 0

theorem daysInMonth_le (leap : Bool) (month : Nat) : daysInMonth leap month ≤ 31 := by
  have hall : ∀ leap : Bool, ∀ m : Fin 12, daysInMonth leap (m + 1) ≤ 31 := by decide
  unfold daysInMonth at hall ⊢
  by_cases hlt : month - 1 < 12
  · exact hall leap ⟨month - 1, hlt⟩
  · rw [List.getD_eq_getElem?_getD, List.getElem?_eq_none (by simpa using hlt)]
    decide

/-- The days of the months before. -/
def daysBeforeMonth (leap : Bool) (month : Nat) : Nat :=
  (List.range (month - 1)).foldl (fun days m => days + daysInMonth leap (m + 1)) 0

/-- The month of a day of the year, and how many days of it are past. -/
def monthOfDay (leap : Bool) (k : Nat) : Nat × Nat :=
  let month := (k + 50) / 32
  if k < daysBeforeMonth leap month then (month - 1, k - daysBeforeMonth leap (month - 1))
  else (month, k - daysBeforeMonth leap month)

theorem monthOfDay_spec (leap : Bool) {k : Nat} (hk : k < daysInYear leap) :
    1 ≤ (monthOfDay leap k).1 ∧ (monthOfDay leap k).1 ≤ 12 ∧
      (monthOfDay leap k).2 < daysInMonth leap (monthOfDay leap k).1 ∧
      daysBeforeMonth leap (monthOfDay leap k).1 + (monthOfDay leap k).2 = k := by
  have hall : ∀ leap : Bool, ∀ k : Fin 366, k.val < daysInYear leap →
      1 ≤ (monthOfDay leap k).1 ∧ (monthOfDay leap k).1 ≤ 12 ∧
        (monthOfDay leap k).2 < daysInMonth leap (monthOfDay leap k).1 ∧
        daysBeforeMonth leap (monthOfDay leap k).1 + (monthOfDay leap k).2 = k := by
    decide +kernel
  have hlt : k < 366 := by
    unfold daysInYear at hk
    split_ifs at hk <;> omega
  exact hall leap ⟨k, hlt⟩ hk

/-- The days of a month are followed by those of the next, within the year. -/
theorem daysBeforeMonth_le (leap : Bool) {m m' : Nat} (hm : m < m') (hm' : m' ≤ 12) (h1 : 1 ≤ m) :
    daysBeforeMonth leap m + daysInMonth leap m ≤ daysBeforeMonth leap m' := by
  have hall : ∀ leap : Bool, ∀ m m' : Fin 13, m < m' → 1 ≤ m.val →
      daysBeforeMonth leap m + daysInMonth leap m ≤ daysBeforeMonth leap m' := by decide +kernel
  exact hall leap ⟨m, by omega⟩ ⟨m', by omega⟩ hm h1

theorem daysBeforeMonth_add_le (leap : Bool) {m : Nat} (h1 : 1 ≤ m) (h12 : m ≤ 12) :
    daysBeforeMonth leap m + daysInMonth leap m ≤ daysInYear leap := by
  have hall : ∀ leap : Bool, ∀ m : Fin 13, 1 ≤ m.val →
      daysBeforeMonth leap m + daysInMonth leap m ≤ daysInYear leap := by decide +kernel
  exact hall leap ⟨m, by omega⟩ h1

/-! ## Fields in order -/

/-- Lists of one length are compared at the first place that differs. -/
theorem append_lt_append_iff {α : Type} [LT α] {l l' r r' : List α} (h : l.length = l'.length) :
    l ++ r < l' ++ r' ↔ l < l' ∨ l = l' ∧ r < r' := by
  induction l generalizing l' with
  | nil =>
    obtain rfl := List.length_eq_zero_iff.mp h.symm
    simp
  | cons a l ih =>
    cases l' with
    | nil => cases h
    | cons b l' =>
      rw [List.cons_append, List.cons_append, List.cons_lt_cons_iff, List.cons_lt_cons_iff,
        ih (Nat.succ.inj h), List.cons.injEq]
      tauto

/-! ## Dates -/

structure Date where
  year : Nat
  month : Nat
  day : Nat
  deriving DecidableEq, Repr

namespace Date

/-- A date there is. -/
def Valid (d : Date) : Prop :=
  1 ≤ d.year ∧ 1 ≤ d.month ∧ d.month ≤ 12 ∧ 1 ≤ d.day ∧ d.day ≤ daysInMonth (isLeap d.year) d.month

instance (d : Date) : Decidable d.Valid := inferInstanceAs (Decidable (_ ∧ _))

def dayNumber (d : Date) : Nat :=
  daysBeforeYear d.year + daysBeforeMonth (isLeap d.year) d.month + (d.day - 1)

def ofDayNumber (n : Nat) : Date :=
  let year := yearOfDay n
  let month := monthOfDay (isLeap year.1) year.2
  ⟨year.1, month.1, month.2 + 1⟩

theorem valid_ofDayNumber (n : Nat) : (ofDayNumber n).Valid := by
  obtain ⟨hyear, hlt, -⟩ := yearOfDay_spec n
  obtain ⟨h1, h12, hday, -⟩ := monthOfDay_spec _ hlt
  exact ⟨hyear, h1, h12, Nat.le_add_left 1 _, hday⟩

@[simp] theorem dayNumber_ofDayNumber (n : Nat) : (ofDayNumber n).dayNumber = n := by
  obtain ⟨-, hlt, hyear⟩ := yearOfDay_spec n
  obtain ⟨-, -, -, hmonth⟩ := monthOfDay_spec _ hlt
  unfold dayNumber ofDayNumber
  dsimp only
  omega

/-- The fields from the year down. -/
def fields (d : Date) : List Nat := [d.year, d.month, d.day]

variable {d d' : Date}

theorem eq_of_fields (h : d.fields = d'.fields) : d = d' := by
  cases d
  cases d'
  simpa [fields] using h

theorem dayNumber_lt_next_year (h : d.Valid) : d.dayNumber < daysBeforeYear (d.year + 1) := by
  obtain ⟨hyear, h1, h12, hday, hle⟩ := h
  have hmonth := daysBeforeMonth_add_le (isLeap d.year) h1 h12
  rw [daysBeforeYear_succ hyear]
  unfold dayNumber
  omega

/-- Later dates are later days. -/
theorem dayNumber_lt (h : d.Valid) (h' : d'.Valid) (hlt : d.fields < d'.fields) :
    d.dayNumber < d'.dayNumber := by
  have hnext := dayNumber_lt_next_year h
  obtain ⟨hyear, h1, -, hday, hle⟩ := h
  obtain ⟨-, -, h12', hday', -⟩ := h'
  -- by the first field that differs
  rcases List.cons_lt_cons_iff.mp hlt with hlt | ⟨hy, hlt⟩
  · have hmono := daysBeforeYear_mono (Nat.le_add_left 1 d.year) hlt
    unfold dayNumber at hnext ⊢
    omega
  · unfold dayNumber
    rw [← hy]
    rcases List.cons_lt_cons_iff.mp hlt with hlt | ⟨hm, hlt⟩
    · have hmonth := daysBeforeMonth_le (isLeap d.year) hlt h12' h1
      omega
    · rcases List.cons_lt_cons_iff.mp hlt with hlt | ⟨-, hlt⟩
      · rw [← hm]
        omega
      · cases hlt

end Date

/-! ## Times -/

/-- A time of a day. -/
structure DateTime where
  date : Date
  hour : Nat
  minute : Nat
  second : Nat
  deriving DecidableEq, Repr

namespace DateTime

def Valid (t : DateTime) : Prop := t.date.Valid ∧ t.hour < 24 ∧ t.minute < 60 ∧ t.second < 60

instance (t : DateTime) : Decidable t.Valid := inferInstanceAs (Decidable (_ ∧ _))

/-- The seconds from the first of January of the year 1. -/
def seconds (t : DateTime) : Nat :=
  t.date.dayNumber * 86400 + t.hour * 3600 + t.minute * 60 + t.second

def ofSeconds (n : Nat) : DateTime :=
  ⟨.ofDayNumber (n / 86400), n % 86400 / 3600, n % 3600 / 60, n % 60⟩

theorem valid_ofSeconds (n : Nat) : (ofSeconds n).Valid := by
  refine ⟨Date.valid_ofDayNumber _, ?_, ?_, ?_⟩ <;> (unfold ofSeconds; dsimp only; omega)

@[simp] theorem seconds_ofSeconds (n : Nat) : (ofSeconds n).seconds = n := by
  unfold seconds ofSeconds
  dsimp only
  rw [Date.dayNumber_ofDayNumber]
  omega

/-- The fields from the year down. -/
def fields (t : DateTime) : List Nat := t.date.fields ++ [t.hour, t.minute, t.second]

variable {t t' : DateTime}

theorem eq_of_fields (h : t.fields = t'.fields) : t = t' := by
  obtain ⟨hdate, hrest⟩ := List.append_inj h rfl
  obtain ⟨d, _, _, _⟩ := t
  obtain ⟨d', _, _, _⟩ := t'
  obtain rfl : d = d' := Date.eq_of_fields hdate
  simpa using hrest

theorem seconds_lt (h : t.Valid) (h' : t'.Valid) (hlt : t.fields < t'.fields) :
    t.seconds < t'.seconds := by
  obtain ⟨hdate, hhour, hminute, hsecond⟩ := h
  obtain ⟨hdate', hhour', hminute', hsecond'⟩ := h'
  unfold seconds
  have hlen : t.date.fields.length = t'.date.fields.length := rfl
  rcases (append_lt_append_iff hlen).mp hlt with hlt | ⟨heq, hlt⟩
  · have hday := Date.dayNumber_lt hdate hdate' hlt
    omega
  · rw [Date.eq_of_fields heq]
    simp only [List.cons_lt_cons_iff, List.not_lt_nil, and_false, or_false] at hlt
    omega

/-- Later times have later fields. -/
theorem fields_ofSeconds_lt {m n : Nat} : (ofSeconds m).fields < (ofSeconds n).fields ↔ m < n := by
  constructor
  · intro hlt
    have hseconds := seconds_lt (valid_ofSeconds m) (valid_ofSeconds n) hlt
    rwa [seconds_ofSeconds, seconds_ofSeconds] at hseconds
  · intro hlt
    -- otherwise the other way round, or the same fields and so the same time
    rcases lt_trichotomy (ofSeconds m).fields (ofSeconds n).fields with h | h | h
    · exact h
    · have hsame := congrArg seconds (eq_of_fields h)
      rw [seconds_ofSeconds, seconds_ofSeconds] at hsame
      omega
    · have hseconds := seconds_lt (valid_ofSeconds n) (valid_ofSeconds m) h
      rw [seconds_ofSeconds, seconds_ofSeconds] at hseconds
      omega

theorem year_ofSeconds_mono {m n : Nat} (h : m ≤ n) :
    (ofSeconds m).date.year ≤ (ofSeconds n).date.year := by
  by_contra hlt
  have hfields : (ofSeconds n).fields < (ofSeconds m).fields :=
    List.cons_lt_cons_iff.mpr (.inl (not_le.mp hlt))
  rw [fields_ofSeconds_lt] at hfields
  omega

end DateTime

end Framework.Calendar
