import HopVault.Framework.JsonRoundTrip
import HopVault.Framework.Base64
import HopVault.Framework.SortedMap

/-! # Records as JSON objects

    How a record is written as an object and filled from one. The reader
    is lenient: members may come in any order, a name matches a field
    exactly or else up to case, members without a field are skipped, a
    repeated member overwrites, and `null` leaves a field as it is. A
    value of the wrong type fails the whole record. -/

namespace Framework

namespace Json

open Utf8 Decimal

/-! ## Writing fields -/

/-- An octet string field: base64, and `null` when it is empty. -/
def ofBytes (b : Bytes) : Json := if b = [] then null else str (Base64.encode b)

/-- An integer field. -/
def ofInt (i : Int) : Json := num (itoa i)

/-- A string map field, in key order. -/
def ofStringMap (m : SortedMap Bytes Bytes) : Json := obj (m.entries.map fun e => (e.1, str e.2))

/-- A member that is left out when its value is empty. -/
def omitEmpty (name : Bytes) (isEmpty : Bool) (v : Json) : List (Bytes × Json) :=
  if isEmpty then [] else [(name, v)]

/-! ## Reading fields -/

/-- A string; `cur` is the value the variable holds already. -/
def asString : Json → Bytes → Option Bytes
  | str s, _ => some s
  | null, cur => some cur
  | _, _ => none

/-- The elements of an array; each is read into the element the variable
    holds at its place, or into `zero`. -/
def asElems {β : Type} (read : Json → β → Option β) (zero : β) :
    List Json → List β → Option (List β)
  | [], _ => some []
  | x :: xs, [] => do
    let v ← read x zero
    let vs ← asElems read zero xs []
    some (v :: vs)
  | x :: xs, c :: cs => do
    let v ← read x c
    let vs ← asElems read zero xs cs
    some (v :: vs)

/-- A list. -/
def asList {β : Type} (read : Json → β → Option β) (zero : β) : Json → List β → Option (List β)
  | arr xs, cur => asElems read zero xs cur
  | null, _ => some []
  | _, _ => none

/-- One octet of an array of numbers. -/
def asOctet : Json → UInt8 → Option UInt8
  | num l, _ =>
    match parseInt l with
    | some i => if 0 ≤ i ∧ i < 256 then some (UInt8.ofNat i.toNat) else none
    | none => none
  | null, cur => some cur
  | _, _ => none

/-- An octet string: base64 text, or an array of its octets. -/
def asBytes : Json → Bytes → Option Bytes
  | str s, _ => Base64.decode s
  | j, cur => asList asOctet 0 j cur

/-- A 64-bit integer; a literal that is not one, or out of range, does not
    fit. -/
def asInt64 : Json → Int64 → Option Int64
  | num l, _ =>
    match parseInt l with
    | some i => if -2 ^ 63 ≤ i ∧ i < 2 ^ 63 then some (Int64.ofInt i) else none
    | none => none
  | null, cur => some cur
  | _, _ => none

/-- Bind the members of an object in a string map, one after the other. -/
def bindMembers : List (Bytes × Json) → SortedMap Bytes Bytes → Option (SortedMap Bytes Bytes)
  | [], m => some m
  | (k, v) :: ms, m =>
    match asString v [] with
    | some s => bindMembers ms (m.insert k s)
    | none => none

/-- A string map; members are added to what the variable holds. -/
def asStringMap : Json → SortedMap Bytes Bytes → Option (SortedMap Bytes Bytes)
  | obj ms, cur => bindMembers ms cur
  | null, _ => some SortedMap.empty
  | _, _ => none

/-! ## Records -/

/-- The rune a name is compared under: ASCII letters, `K` (U+212A) and `ſ`
    (U+017F) fold to a capital letter. -/
def foldSeg : Seg → Bytes
  | .rune c o =>
    if 97 ≤ c ∧ c ≤ 122 then [UInt8.ofNat (c - 32)]
    else if c = 0x212A then [75]
    else if c = 0x17F then [83]
    else o
  | .bad b => [b]

/-- A member name up to case. -/
def foldName (s : Bytes) : Bytes := (segs s).flatMap foldSeg

/-- A field of a record of type `α`: its name and how a value fills it. -/
structure RecordField (α : Type) where
  name : Bytes
  fill : Json → α → Option α

/-- A field with its reader, projection and update. -/
def RecordField.of {α β : Type} (name : String) (read : Json → β → Option β) (get : α → β)
    (set : β → α → α) : RecordField α :=
  ⟨lit name, fun j a => (read j (get a)).map fun b => set b a⟩

variable {α : Type}

/-- The field a member name selects: by its exact name, else up to case. -/
def findField (fs : List (RecordField α)) (name : Bytes) : Option (RecordField α) :=
  match fs.find? (fun f => f.name == name) with
  | some f => some f
  | none => fs.find? (fun f => foldName f.name == foldName name)

/-- Fill a record from the members of an object. A member without a field
    is an error only in `strict` mode. -/
def fillMembers (strict : Bool) (fs : List (RecordField α)) : List (Bytes × Json) → α → Option α
  | [], a => some a
  | (k, v) :: ms, a =>
    match findField fs k with
    | some f =>
      match f.fill v a with
      | some a' => fillMembers strict fs ms a'
      | none => none
    | none => if strict then none else fillMembers strict fs ms a

/-- Fill a record from a value. -/
def fill (strict : Bool) (fs : List (RecordField α)) : Json → α → Option α
  | obj ms, a => fillMembers strict fs ms a
  | null, a => some a
  | _, _ => none

/-- Read a text that is exactly one record. -/
def unmarshal (fs : List (RecordField α)) (zero : α) (text : Bytes) : Option α :=
  match parse text with
  | some j => fill false fs j zero
  | none => none

/-- Read the first value of a text as a record, as a streaming decoder
    does; the text after it is not looked at. -/
def decodeStream (fs : List (RecordField α)) (zero : α) (text : Bytes) : Option α :=
  match parsePrefix text with
  | some (j, _) => fill false fs j zero
  | none => none

/-! ## Round trips -/

/-- Base64 text is ASCII, so coercion leaves it alone. -/
@[simp] theorem toValid_base64 (b : Bytes) : toValid (Base64.encode b) = Base64.encode b :=
  toValid_ascii fun _ h => lt_of_le_of_lt (Base64.encode_ascii h).2 (by decide)

@[simp] theorem asString_coerced (s cur : Bytes) :
    asString (coerced (str s)) cur = some (toValid s) := rfl

@[simp] theorem asBytes_ofBytes (b cur : Bytes) : asBytes (coerced (ofBytes b)) cur = some b := by
  unfold ofBytes
  by_cases h : b = []
  · rw [if_pos h, h]
    rfl
  · rw [if_neg h]
    simp [coerced, asBytes]

@[simp] theorem asInt64_ofInt (i cur : Int64) :
    asInt64 (coerced (ofInt i.toInt)) cur = some i := by
  have hlo := i.le_toInt
  have hhi := i.toInt_lt
  have hr : -2 ^ 63 ≤ i.toInt ∧ i.toInt < 2 ^ 63 := ⟨hlo, hhi⟩
  simp only [ofInt, coerced, asInt64, parseInt_itoa, if_pos hr, Int64.ofInt_toInt]

/-- A string map with its names and values coerced; names that become
    equal are bound in key order, the last one wins. -/
def coercedMap (m : SortedMap Bytes Bytes) : SortedMap Bytes Bytes :=
  SortedMap.ofList (m.entries.map fun e => (toValid e.1, toValid e.2))

theorem coercedMembers_map (l : List (Bytes × Bytes)) :
    coercedMembers (l.map fun e => (e.1, str e.2)) =
      l.map fun e => (toValid e.1, str (toValid e.2)) := by
  induction l with
  | nil => rfl
  | cons e l ih => simp [coercedMembers, coerced, ih]

theorem bindMembers_map (l : List (Bytes × Bytes)) (m : SortedMap Bytes Bytes) :
    bindMembers (l.map fun e => (toValid e.1, str (toValid e.2))) m =
      some ((l.map fun e => (toValid e.1, toValid e.2)).foldl (fun m e => m.insert e.1 e.2) m) := by
  induction l generalizing m with
  | nil => rfl
  | cons e l ih => simpa [bindMembers, asString] using ih _

@[simp] theorem asStringMap_ofStringMap (m : SortedMap Bytes Bytes) :
    asStringMap (coerced (ofStringMap m)) SortedMap.empty = some (coercedMap m) := by
  simp only [ofStringMap, coerced, asStringMap, coercedMembers_map, bindMembers_map]
  rfl

/-- A map of well-formed names and values is its own coercion. -/
theorem coercedMap_of_valid {m : SortedMap Bytes Bytes}
    (h : ∀ e ∈ m.entries, Valid e.1 ∧ Valid e.2) : coercedMap m = m := by
  have hmap : m.entries.map (fun e => (toValid e.1, toValid e.2)) = m.entries := by
    conv_rhs => rw [← List.map_id m.entries]
    refine List.map_congr_left fun e he => ?_
    obtain ⟨h1, h2⟩ := h e he
    exact Prod.ext h1 h2
  rw [coercedMap, hmap, SortedMap.ofList_entries]

/-! ## Reading a written record member by member -/

theorem fill_obj {strict : Bool} {fs : List (RecordField α)} {ms : List (Bytes × Json)} {a : α} :
    fill strict fs (coerced (obj ms)) a = fillMembers strict fs (coercedMembers ms) a := rfl

/-- A member with a field is read into it. -/
theorem fillMembers_known {strict : Bool} {fs : List (RecordField α)} {k : Bytes} {v : Json}
    {ms : List (Bytes × Json)} {a b : α} {f : RecordField α}
    (hf : findField fs (toValid k) = some f) (hv : f.fill (coerced v) a = some b) :
    fillMembers strict fs (coercedMembers ((k, v) :: ms)) a =
      fillMembers strict fs (coercedMembers ms) b := by
  simp only [coercedMembers, fillMembers, hf, hv]

/-- A member without a field is skipped. -/
theorem fillMembers_unknown {fs : List (RecordField α)} {k : Bytes} {v : Json}
    {ms : List (Bytes × Json)} {a : α} (hf : findField fs (toValid k) = none) :
    fillMembers false fs (coercedMembers ((k, v) :: ms)) a =
      fillMembers false fs (coercedMembers ms) a := by
  simp only [coercedMembers, fillMembers, hf, Bool.false_eq_true, if_false]

@[simp] theorem fillMembers_nil {strict : Bool} {fs : List (RecordField α)} {a : α} :
    fillMembers strict fs (coercedMembers []) a = some a := rfl

/-- A member that is left out when it is empty is read as if it were
    written, if the record starts out empty there. -/
theorem fillMembers_omitEmpty {strict : Bool} {fs : List (RecordField α)} {k : Bytes} {v : Json}
    {empty : Bool} {ms : List (Bytes × Json)} {a b : α} {f : RecordField α}
    (hf : findField fs (toValid k) = some f) (hempty : empty = true → b = a)
    (hv : f.fill (coerced v) a = some b) :
    fillMembers strict fs (coercedMembers (omitEmpty k empty v ++ ms)) a =
      fillMembers strict fs (coercedMembers ms) b := by
  cases empty with
  | true =>
    rw [hempty rfl]
    rfl
  | false => exact fillMembers_known hf hv

/-- The same for a reader that does not know the member. -/
theorem fillMembers_omitEmpty_unknown {fs : List (RecordField α)} {k : Bytes} {v : Json}
    {empty : Bool} {ms : List (Bytes × Json)} {a : α} (hf : findField fs (toValid k) = none) :
    fillMembers false fs (coercedMembers (omitEmpty k empty v ++ ms)) a =
      fillMembers false fs (coercedMembers ms) a := by
  cases empty with
  | true => rfl
  | false => exact fillMembers_unknown hf

/-! ## The order of members -/

/-- A member is read before those that follow it. -/
theorem fillMembers_cons {strict : Bool} {fs : List (RecordField α)} (m : Bytes × Json)
    (ms : List (Bytes × Json)) (a : α) :
    fillMembers strict fs (m :: ms) a =
      (fillMembers strict fs [m] a).bind (fillMembers strict fs ms) := by
  obtain ⟨k, v⟩ := m
  simp only [fillMembers]
  cases findField fs k with
  | none => cases strict <;> rfl
  | some f =>
    dsimp only
    cases f.fill v a <;> rfl

/-- The order of members does not matter when any two of them can be read
    in either order. -/
theorem fillMembers_perm {strict : Bool} {fs : List (RecordField α)} {ms ms' : List (Bytes × Json)}
    (hp : ms.Perm ms')
    (hcomm : ∀ x ∈ ms, ∀ y ∈ ms, ∀ a,
      (fillMembers strict fs [x] a).bind (fillMembers strict fs [y]) =
        (fillMembers strict fs [y] a).bind (fillMembers strict fs [x])) (a : α) :
    fillMembers strict fs ms a = fillMembers strict fs ms' a := by
  induction hp generalizing a with
  | nil => rfl
  | @cons m l l' hp ih =>
    rw [fillMembers_cons m l, fillMembers_cons m l']
    congr 1
    funext b
    exact ih (fun x hx y hy => hcomm x (List.mem_cons_of_mem _ hx) y (List.mem_cons_of_mem _ hy)) b
  | swap x y ms =>
    -- two neighbours are exchanged: this is where they have to commute
    have hxy := hcomm x (by simp) y (by simp) a
    have hpair (x y : Bytes × Json) : fillMembers strict fs (x :: y :: ms) a =
        ((fillMembers strict fs [x] a).bind (fillMembers strict fs [y])).bind
          (fillMembers strict fs ms) := by
      rw [fillMembers_cons x (y :: ms), Option.bind_assoc]
      congr 1
      funext b
      exact fillMembers_cons y ms b
    rw [hpair, hpair, hxy]
  | trans hp _ ih₁ ih₂ =>
    rw [ih₁ hcomm a]
    exact ih₂ (fun x hx y hy => hcomm x (hp.mem_iff.mpr hx) y (hp.mem_iff.mpr hy)) a

/-- The members of an object with string values. -/
theorem bindMembers_str (l : List (Bytes × Bytes)) (m : SortedMap Bytes Bytes) :
    bindMembers (l.map fun e => (e.1, str e.2)) m =
      some (l.foldl (fun m e => m.insert e.1 e.2) m) := by
  induction l generalizing m with
  | nil => rfl
  | cons e l ih => simpa [bindMembers, asString] using ih _

/-! ## Well-formedness -/

theorem wfMembers_append {l l' : List (Bytes × Json)} (h : WfMembers l) (h' : WfMembers l') :
    WfMembers (l ++ l') := by
  induction l with
  | nil => exact h'
  | cons m l ih => exact ⟨h.1, ih h.2⟩

theorem wfMembers_omitEmpty {k : Bytes} {empty : Bool} {v : Json} (h : Wf v) :
    WfMembers (omitEmpty k empty v) := by
  cases empty with
  | true => trivial
  | false => exact ⟨h, trivial⟩

@[simp] theorem wf_ofBytes (b : Bytes) : Wf (ofBytes b) := by
  unfold ofBytes
  split_ifs <;> trivial

@[simp] theorem wf_ofInt (i : Int) : Wf (ofInt i) := numLit_itoa i

@[simp] theorem wf_str (s : Bytes) : Wf (str s) := trivial

@[simp] theorem wf_ofStringMap (m : SortedMap Bytes Bytes) : Wf (ofStringMap m) := by
  unfold ofStringMap
  show WfMembers _
  induction m.entries with
  | nil => trivial
  | cons e l ih => exact ⟨trivial, ih⟩

/-- A record read back from the text of its object. -/
theorem unmarshal_encode {fs : List (RecordField α)} {zero : α} {j : Json} (h : Wf j) :
    unmarshal fs zero (encode j) = fill false fs (coerced j) zero := by
  simp [unmarshal, parse_encode h]

/-- The same for a streaming decoder, whatever follows the object. -/
theorem decodeStream_encode (fs : List (RecordField α)) (zero : α) {j : Json} (h : Wf j) {r : Bytes}
    (hr : NumEnd r) : decodeStream fs zero (encode j ++ r) = fill false fs (coerced j) zero := by
  simp [decodeStream, parsePrefix_encode h hr]

/-! ## Lengths -/

/-- Base64 text needs no escapes. -/
theorem quote_base64 (s : Bytes) : quote (Base64.encode s) = 34 :: (Base64.encode s ++ [34]) := by
  have hsextet : ∀ n < 64, escapeAscii (Base64.encodeSextet n) = [Base64.encodeSextet n] := by
    decide
  have hplain : ∀ b ∈ Base64.encode s, escapeSeg (.rune b.toNat [b]) = [b] := by
    intro b hb
    have hascii := (Base64.encode_ascii hb).2
    have hesc : escapeAscii b = [b] := by
      rcases Base64.mem_encode hb with ⟨n, hn, rfl⟩ | rfl
      · exact hsextet n hn
      · decide
    have hlow : b.toNat < 0x80 := by omega
    simp only [escapeSeg, if_pos hlow, List.flatMap_cons, List.flatMap_nil, List.append_nil, hesc]
  unfold quote
  rw [segs_ascii fun b hb => by have := (Base64.encode_ascii hb).2; omega, List.flatMap_map,
    List.flatMap_congr hplain, List.flatMap_singleton']

/-- The length of an octet string's text is decided by that of the octets. -/
theorem length_encode_ofBytes {a b : Bytes} (h : a.length = b.length) :
    (ofBytes a).encode.length = (ofBytes b).encode.length := by
  unfold ofBytes
  by_cases ha : a = []
  · subst ha
    rw [if_pos rfl, if_pos (List.length_eq_zero_iff.mp h.symm)]
  · have hb : b ≠ [] := by
      rintro rfl
      exact ha (List.length_eq_zero_iff.mp h)
    rw [if_neg ha, if_neg hb, encode, encode, quote_base64, quote_base64, List.length_cons,
      List.length_cons, List.length_append, List.length_append, Base64.length_encode,
      Base64.length_encode, h]

end Json

end Framework
