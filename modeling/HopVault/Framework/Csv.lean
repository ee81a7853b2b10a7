import Mathlib.Data.List.Basic
import Mathlib.Tactic.SplitIfs

/-! # Comma-separated values

    Rows of fields as one text. The writer puts a field into quotes when it
    has to; the reader is an automaton that is fed the text line by line,
    and is told of the end of each line. A line may end within quotes, so
    that a row can take several. -/

namespace Framework.Csv

variable {α : Type} [DecidableEq α]

/-- The characters with a meaning of their own. -/
structure Dialect (α : Type) where
  delimiter : α
  quote : α
  cr : α
  lf : α
  distinct : [delimiter, quote, cr, lf].Nodup

namespace Dialect

variable (d : Dialect α)

def isBreak (c : α) : Bool := c == d.cr || c == d.lf

def isSpecial (c : α) : Bool := c == d.delimiter || c == d.quote || d.isBreak c

end Dialect

variable (d : Dialect α)

/-! ## Writing -/

/-- A field within quotes, with every quote of its own doubled. -/
def quoteField (field : List α) : List α :=
  d.quote :: (field.flatMap fun c => if c = d.quote then [c, c] else [c]) ++ [d.quote]

/-- A field is quoted when it has a special character. -/
def writeField (field : List α) : List α :=
  if field.any d.isSpecial then quoteField d field else field

def joinFields : List (List α) → List α
  | [] => []
  | [field] => writeField d field
  | field :: fields => writeField d field ++ d.delimiter :: joinFields fields

/-- A row that would be empty is quoted. -/
def writeRow (row : List (List α)) : List α :=
  (if row = [[]] then quoteField d [] else joinFields d row) ++ [d.cr, d.lf]

def write (rows : List (List (List α))) : List α := rows.flatMap (writeRow d)

/-! ## Reading -/

/-- The text with the ends of its lines: after a line feed, after a carriage
    return that no line feed follows, and after the last character. -/
def marks : List α → List (Option α)
  | [] => []
  | [c] => [some c, none]
  | c :: c' :: text =>
    if c = d.lf ∨ c = d.cr ∧ c' ≠ d.lf then some c :: none :: marks (c' :: text)
    else some c :: marks (c' :: text)

inductive State where
  | startRecord
  | startField
  | inField
  | inQuotedField
  | quoteInQuotedField
  | eatBreak
  deriving DecidableEq, Repr

/-- The field and the fields of the row that have been read. -/
structure Parser (α : Type) where
  state : State
  field : List α
  fields : List (List α)

namespace Parser

def start : Parser α := ⟨.startRecord, [], []⟩

def add (p : Parser α) (state : State) (c : α) : Parser α :=
  { p with state := state, field := p.field ++ [c] }

def save (p : Parser α) (state : State) : Parser α := ⟨state, [], p.fields ++ [p.field]⟩

end Parser

/-- A character outside quotes, or the end of a line; `quoted` is what a
    quote does here. -/
def stepPlain (p : Parser α) (quoted : Parser α) : Option α → Parser α
  | none => p.save .startRecord
  | some c =>
    if d.isBreak c then p.save .eatBreak
    else if c = d.quote then quoted
    else if c = d.delimiter then p.save .startField
    else p.add .inField c

/-- One character, or the end of a line. -/
def step (p : Parser α) (c : Option α) : Option (Parser α) :=
  match p.state, c with
  | .startRecord, none => some p
  | .startRecord, some c =>
    if d.isBreak c then some { p with state := .eatBreak }
    else some (stepPlain d p { p with state := .inQuotedField } (some c))
  | .startField, c => some (stepPlain d p { p with state := .inQuotedField } c)
  | .inField, c => some (stepPlain d p (p.add .inField d.quote) c)
  | .inQuotedField, none => some p
  | .inQuotedField, some c =>
    if c = d.quote then some { p with state := .quoteInQuotedField }
    else some (p.add .inQuotedField c)
  | .quoteInQuotedField, c => some (stepPlain d p (p.add .inQuotedField d.quote) c)
  | .eatBreak, none => some { p with state := .startRecord }
  | .eatBreak, some c => if d.isBreak c then some p else none

/-- The rows of a marked text; a row is complete when a line ends outside
    quotes. -/
def readMarks : Parser α → List (Option α) → Option (List (List (List α)))
  | p, [] =>
    if p.field ≠ [] ∨ p.state = .inQuotedField then some [p.fields ++ [p.field]] else some []
  | p, some c :: ms =>
    match step d p (some c) with
    | none => none
    | some p' => readMarks p' ms
  | p, none :: ms =>
    match step d p none with
    | none => none
    | some p' =>
      if p'.state = .startRecord then (readMarks .start ms).map (p'.fields :: ·)
      else readMarks p' ms

def read (text : List α) : Option (List (List (List α))) := readMarks d .start (marks d text)

/-! ## Round trip -/

variable {d}

namespace Dialect

/-- The characters are different. -/
theorem quote_not_break : d.isBreak d.quote = false := by
  have h := d.distinct
  simp only [List.nodup_cons, List.mem_cons, List.not_mem_nil, or_false, not_or] at h
  simp [isBreak, h]

theorem delimiter_not_break : d.isBreak d.delimiter = false := by
  have h := d.distinct
  simp only [List.nodup_cons, List.mem_cons, List.not_mem_nil, or_false, not_or] at h
  simp [isBreak, h]

omit [DecidableEq α] in
theorem delimiter_ne_quote : d.delimiter ≠ d.quote := by
  have h := d.distinct
  simp only [List.nodup_cons, List.mem_cons, not_or] at h
  exact h.1.1

omit [DecidableEq α] in
theorem cr_ne_lf : d.cr ≠ d.lf := by
  have h := d.distinct
  simp only [List.nodup_cons, List.mem_cons, List.not_mem_nil, or_false, not_or] at h
  exact h.2.2.1

theorem isSpecial_eq_false {c : α} :
    d.isSpecial c = false ↔ c ≠ d.delimiter ∧ c ≠ d.quote ∧ d.isBreak c = false := by
  simp [isSpecial, and_assoc]

end Dialect

variable {p : Parser α} {c : α} {text : List α}

/-- No line ends after a character that is no break. -/
theorem marks_cons (hc : d.isBreak c = false) (htext : text ≠ []) :
    marks d (c :: text) = some c :: marks d text := by
  have hne : ¬(c = d.lf ∨ c = d.cr ∧ text.head? ≠ some d.lf) := by
    simp only [Dialect.isBreak, Bool.or_eq_false_iff, beq_eq_false_iff_ne] at hc
    tauto
  cases text with
  | nil => exact absurd rfl htext
  | cons c' text =>
    simp only [Dialect.isBreak, Bool.or_eq_false_iff, beq_eq_false_iff_ne] at hc
    simp [marks, hc]

theorem marks_lf : marks d (d.lf :: text) = some d.lf :: none :: marks d text := by
  cases text with
  | nil => rfl
  | cons c text => simp [marks]

/-- The end of a row. -/
theorem marks_crlf : marks d (d.cr :: d.lf :: text) =
    some d.cr :: some d.lf :: none :: marks d text := by
  rw [← marks_lf]
  simp [marks, d.cr_ne_lf]

/-- Within quotes the end of a line means nothing. -/
theorem readMarks_quoted_cons (hp : p.state = .inQuotedField) (hc : c ≠ d.quote)
    (htext : text ≠ []) :
    readMarks d p (marks d (c :: text)) = readMarks d (p.add .inQuotedField c) (marks d text) := by
  have hstep : step d p (some c) = some (p.add .inQuotedField c) := by simp [step, hp, hc]
  have hend : step d (p.add .inQuotedField c) none = some (p.add .inQuotedField c) := rfl
  cases text with
  | nil => exact absurd rfl htext
  | cons c' text =>
    by_cases hline : c = d.lf ∨ c = d.cr ∧ c' ≠ d.lf
    · rw [marks, if_pos hline]
      simp only [readMarks, hstep, hend]
      rw [if_neg (by simp [Parser.add])]
    · rw [marks, if_neg hline]
      simp [readMarks, hstep]

theorem readMarks_quote (hp : p.state = .inQuotedField) (htext : text ≠ []) :
    readMarks d p (marks d (d.quote :: text)) =
      readMarks d { p with state := .quoteInQuotedField } (marks d text) := by
  rw [marks_cons d.quote_not_break htext]
  simp [readMarks, step, hp]

/-- A doubled quote is one. -/
theorem readMarks_quotes (hp : p.state = .inQuotedField) (htext : text ≠ []) :
    readMarks d p (marks d (d.quote :: d.quote :: text)) =
      readMarks d (p.add .inQuotedField d.quote) (marks d text) := by
  rw [readMarks_quote hp (List.cons_ne_nil _ _), marks_cons d.quote_not_break htext]
  simp [readMarks, step, stepPlain, d.quote_not_break, Parser.add]

/-- The rest of a quoted field. -/
theorem readMarks_quoted {field : List α} (hp : p.state = .inQuotedField) (htext : text ≠ []) :
    readMarks d p (marks d ((field.flatMap fun c => if c = d.quote then [c, c] else [c]) ++
      d.quote :: text)) =
      readMarks d ⟨.quoteInQuotedField, p.field ++ field, p.fields⟩ (marks d text) := by
  induction field generalizing p with
  | nil =>
    rw [List.flatMap_nil, List.nil_append, readMarks_quote hp htext, List.append_nil]
  | cons c field ih =>
    rw [List.flatMap_cons, List.append_assoc]
    have hrest : (field.flatMap fun c => if c = d.quote then [c, c] else [c]) ++ d.quote :: text ≠
        [] := by simp
    have hadd : (p.add .inQuotedField c).state = .inQuotedField := rfl
    by_cases hc : c = d.quote
    · subst hc
      rw [if_pos rfl]
      rw [List.cons_append, List.singleton_append, readMarks_quotes hp hrest, ih hadd]
      simp [Parser.add]
    · rw [if_neg hc]
      rw [List.singleton_append, readMarks_quoted_cons hp hc hrest, ih hadd]
      simp [Parser.add]

/-- The states in which a field can end. -/
def State.Open : State → Prop
  | .startField | .inField | .quoteInQuotedField => True
  | _ => False

/-- The rest of a field without special characters. -/
theorem readMarks_plain {field : List α} (hp : p.state = .startField ∨ p.state = .inField)
    (hfield : ∀ c ∈ field, d.isSpecial c = false) (htext : text ≠ []) :
    ∃ state, state.Open ∧ readMarks d p (marks d (field ++ text)) =
      readMarks d ⟨state, p.field ++ field, p.fields⟩ (marks d text) := by
  induction field generalizing p with
  | nil =>
    refine ⟨p.state, ?_, by simp⟩
    rcases hp with hp | hp <;> rw [hp] <;> trivial
  | cons c field ih =>
    obtain ⟨hc, hfield⟩ := List.forall_mem_cons.mp hfield
    obtain ⟨hdelimiter, hquote, hbreak⟩ := Dialect.isSpecial_eq_false.mp hc
    have hstep : step d p (some c) = some (p.add .inField c) := by
      rcases hp with hp | hp <;> simp [step, hp, stepPlain, hbreak, hquote, hdelimiter]
    obtain ⟨state, hopen, hread⟩ := ih (p := p.add .inField c) (.inr rfl) hfield
    refine ⟨state, hopen, ?_⟩
    rw [List.cons_append, marks_cons hbreak (by simp [htext]), readMarks, hstep]
    simpa [Parser.add] using hread

/-- A field between quotes, from its start. -/
theorem readMarks_quoteField {field : List α} (hp : p.state = .startField) (hempty : p.field = [])
    (htext : text ≠ []) : readMarks d p (marks d (quoteField d field ++ text)) =
      readMarks d ⟨.quoteInQuotedField, field, p.fields⟩ (marks d text) := by
  unfold quoteField
  rw [List.append_assoc, List.cons_append, List.singleton_append,
    marks_cons d.quote_not_break (by simp), readMarks]
  have hstep : step d p (some d.quote) = some { p with state := .inQuotedField } := by
    simp [step, hp, stepPlain, d.quote_not_break]
  rw [hstep]
  dsimp only
  rw [readMarks_quoted rfl htext, hempty, List.nil_append]

/-- A written field, from its start. -/
theorem readMarks_writeField (field : List α) (hp : p.state = .startField) (hempty : p.field = [])
    (htext : text ≠ []) : ∃ state, state.Open ∧
      readMarks d p (marks d (writeField d field ++ text)) =
        readMarks d ⟨state, field, p.fields⟩ (marks d text) := by
  unfold writeField
  split_ifs with hspecial
  · exact ⟨.quoteInQuotedField, trivial, readMarks_quoteField hp hempty htext⟩
  · have hplain : ∀ c ∈ field, d.isSpecial c = false := by simpa using hspecial
    obtain ⟨state, hopen, hread⟩ := readMarks_plain (.inl hp) hplain htext
    refine ⟨state, hopen, ?_⟩
    rw [hread, hempty, List.nil_append]

/-- A delimiter ends a field. -/
theorem readMarks_delimiter (hp : p.state.Open) (htext : text ≠ []) :
    readMarks d p (marks d (d.delimiter :: text)) =
      readMarks d (p.save .startField) (marks d text) := by
  rw [marks_cons d.delimiter_not_break htext, readMarks]
  have hstep : step d p (some d.delimiter) = some (p.save .startField) := by
    obtain ⟨state, field, fields⟩ := p
    cases state <;>
      first
      | exact hp.elim
      | simp [step, stepPlain, d.delimiter_not_break, d.delimiter_ne_quote, Parser.save]
  rw [hstep]

/-- The rest of the end of a row. -/
theorem readMarks_lf (field : List α) (fields : List (List α)) (ms : List (Option α)) :
    readMarks d ⟨.eatBreak, field, fields⟩ (some d.lf :: none :: ms) =
      (readMarks d .start ms).map (fields :: ·) := by
  simp [readMarks, step, Dialect.isBreak]

/-- The end of a row ends its last field. -/
theorem readMarks_crlf (hp : p.state.Open) :
    readMarks d p (marks d (d.cr :: d.lf :: text)) =
      (read d text).map ((p.fields ++ [p.field]) :: ·) := by
  have hcr : d.isBreak d.cr = true := by simp [Dialect.isBreak]
  have hstep : step d p (some d.cr) = some (p.save .eatBreak) := by
    obtain ⟨state, field, fields⟩ := p
    cases state <;>
      first
      | exact hp.elim
      | simp [step, stepPlain, hcr, Parser.save]
  rw [marks_crlf, readMarks, hstep]
  exact readMarks_lf _ _ _

/-- The fields of a row that is not empty. -/
theorem readMarks_joinFields {fields : List (List α)} (hne : fields ≠ []) (hp : p.state = .startField)
    (hempty : p.field = []) :
    readMarks d p (marks d (joinFields d fields ++ d.cr :: d.lf :: text)) =
      (read d text).map ((p.fields ++ fields) :: ·) := by
  induction fields generalizing p with
  | nil => exact absurd rfl hne
  | cons field fields ih =>
    cases fields with
    | nil =>
      obtain ⟨state, hopen, hread⟩ := readMarks_writeField field hp hempty
        (List.cons_ne_nil d.cr (d.lf :: text))
      show readMarks d p (marks d (writeField d field ++ _)) = _
      rw [hread]
      exact readMarks_crlf hopen
    | cons next fields =>
      have htext : joinFields d (next :: fields) ++ d.cr :: d.lf :: text ≠ [] := by simp
      obtain ⟨state, hopen, hread⟩ := readMarks_writeField field hp hempty
        (List.cons_ne_nil d.delimiter (joinFields d (next :: fields) ++ d.cr :: d.lf :: text))
      show readMarks d p (marks d ((writeField d field ++ d.delimiter :: _) ++ _)) = _
      rw [List.append_assoc, List.cons_append, hread, readMarks_delimiter hopen htext,
        ih (List.cons_ne_nil _ _) rfl rfl]
      simp [Parser.save]

/-- At its first character, if that is no break, a row is at the start of a
    field. -/
theorem read_cons (hc : d.isBreak c = false) (htext : text ≠ []) :
    read d (c :: text) = readMarks d ⟨.startField, [], []⟩ (marks d (c :: text)) := by
  unfold read
  rw [marks_cons hc htext, readMarks, readMarks]
  simp [step, stepPlain, hc, Parser.start, Parser.save, Parser.add]

/-- What is written for a row begins with no break, unless the row has no
    fields. -/
theorem exists_cons_joinFields {fields : List (List α)} (hne : fields ≠ []) (hone : fields ≠ [[]]) :
    ∃ c rest, joinFields d fields = c :: rest ∧ d.isBreak c = false := by
  have hfield (field : List α) (h : field ≠ []) :
      ∃ c rest, writeField d field = c :: rest ∧ d.isBreak c = false := by
    unfold writeField
    split_ifs with hspecial
    · exact ⟨d.quote, _, rfl, d.quote_not_break⟩
    · cases field with
      | nil => exact absurd rfl h
      | cons c field =>
        refine ⟨c, field, rfl, ?_⟩
        have hplain : d.isSpecial c = false ∧ ∀ x ∈ field, d.isSpecial x = false := by
          simpa using hspecial
        exact (Dialect.isSpecial_eq_false.mp hplain.1).2.2
  cases fields with
  | nil => exact absurd rfl hne
  | cons field fields =>
    cases fields with
    | nil => exact hfield field fun h => hone (by rw [h])
    | cons next fields =>
      by_cases h : field = []
      · subst h
        exact ⟨d.delimiter, _, rfl, d.delimiter_not_break⟩
      · obtain ⟨c, rest, hrest, hc⟩ := hfield field h
        refine ⟨c, rest ++ d.delimiter :: joinFields d (next :: fields), ?_, hc⟩
        show writeField d field ++ d.delimiter :: _ = _
        rw [hrest, List.cons_append]

/-- A written row is read back. -/
theorem read_writeRow (row : List (List α)) :
    read d (writeRow d row ++ text) = (read d text).map (row :: ·) := by
  unfold writeRow
  rw [List.append_assoc, List.cons_append, List.singleton_append]
  by_cases hempty : row = [[]]
  · -- the only field, which is empty, is quoted
    subst hempty
    rw [if_pos rfl]
    have hquote : quoteField d [] = [d.quote, d.quote] := rfl
    rw [hquote, List.cons_append, List.singleton_append, read_cons d.quote_not_break (by simp)]
    have hread : readMarks d ⟨.startField, [], []⟩ (marks d (quoteField d [] ++ d.cr :: d.lf :: text)) =
        readMarks d ⟨.quoteInQuotedField, [], []⟩ (marks d (d.cr :: d.lf :: text)) :=
      readMarks_quoteField rfl rfl (List.cons_ne_nil _ _)
    rw [hquote, List.cons_append, List.singleton_append] at hread
    rw [hread]
    exact readMarks_crlf trivial
  · rw [if_neg hempty]
    cases row with
    | nil =>
      -- a line without characters is a row without fields
      show read d (d.cr :: d.lf :: text) = _
      unfold read
      rw [marks_crlf, readMarks]
      have hstep : step d .start (some d.cr) = some ⟨.eatBreak, [], []⟩ := by
        simp [step, Parser.start, Dialect.isBreak]
      rw [hstep]
      exact readMarks_lf [] [] _
    | cons field fields =>
      obtain ⟨c, rest, hrest, hc⟩ := exists_cons_joinFields (List.cons_ne_nil field fields) hempty
      rw [hrest, List.cons_append, read_cons hc (by simp), ← List.cons_append, ← hrest]
      exact readMarks_joinFields (List.cons_ne_nil _ _) rfl rfl

/-- **Round trip**: what is written is read back, whatever characters the
    fields have. -/
theorem read_write (rows : List (List (List α))) : read d (write d rows) = some rows := by
  induction rows with
  | nil => rfl
  | cons row rows ih =>
    unfold write at ih ⊢
    rw [List.flatMap_cons, read_writeRow, ih]
    rfl

end Framework.Csv
