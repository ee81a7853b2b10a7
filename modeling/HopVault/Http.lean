import HopVault.Framework.JsonStruct
import HopVault.Framework.Infix

/-! # HTTP messages and the string functions around them

    The parts of `net/http` and `strings` the handlers and the client use:
    requests and responses as data, `http.Error`, the canonical form of a
    header name, `TrimSpace` and `Contains`.

    A Go error is its text (`Error()`), since the code wraps, prints and
    searches the text and nothing else. -/

namespace HopVault

open Framework Framework.Utf8 Framework.Decimal

/-- A value, or the text of an error. -/
abbrev Result (α : Type) : Type := Except Bytes α

/-- The error `fmt.Errorf("<what>: %w", err)`. -/
def wrap (what : String) (err : Bytes) : Bytes := lit what ++ lit ": " ++ err

/-! ## Messages -/

/-- A response as its reader sees it: the status and the octets of the
    body that arrived. -/
structure Response where
  statusCode : Int
  body : Bytes
  deriving DecidableEq, Repr

/-- A POST of a body to a URL. -/
structure Post where
  url : Bytes
  contentType : Bytes
  body : Bytes
  deriving DecidableEq, Repr

/-- A request as a handler sees it. -/
structure ServerRequest where
  method : Bytes
  remoteAddr : Bytes
  body : Bytes
  deriving DecidableEq, Repr

/-- `http.StatusOK`. -/
def statusOK : Int := 200
/-- `http.StatusCreated`. -/
def statusCreated : Int := 201
/-- `http.StatusNoContent`. -/
def statusNoContent : Int := 204
/-- `http.StatusBadRequest`. -/
def statusBadRequest : Int := 400
/-- `http.StatusUnauthorized`. -/
def statusUnauthorized : Int := 401
/-- `http.StatusNotFound`. -/
def statusNotFound : Int := 404
/-- `http.StatusMethodNotAllowed`. -/
def statusMethodNotAllowed : Int := 405
/-- `http.StatusInternalServerError`. -/
def statusInternalServerError : Int := 500
/-- `http.StatusBadGateway`. -/
def statusBadGateway : Int := 502

/-- `http.MethodPost`. -/
def methodPost : Bytes := lit "POST"

/-- `http.Error`: the message and a line end. -/
def httpError (message : String) (code : Int) : Response := ⟨code, lit message ++ [10]⟩

/-- `w.WriteHeader` without a body. -/
def writeHeader (code : Int) : Response := ⟨code, []⟩

/-! ## Strings -/

/-- `unicode.IsSpace`. -/
def isSpace (c : Nat) : Bool :=
  decide (c = 0x20 ∨ (0x09 ≤ c ∧ c ≤ 0x0D) ∨ c = 0x85 ∨ c = 0xA0 ∨ c = 0x1680 ∨
    (0x2000 ≤ c ∧ c ≤ 0x200A) ∨ c = 0x2028 ∨ c = 0x2029 ∨ c = 0x202F ∨ c = 0x205F ∨ c = 0x3000)

/-- `strings.TrimSpace`. -/
def trimSpace (s : Bytes) : Bytes :=
  let front := (segs s).dropWhile fun g => isSpace g.code
  ((front.reverse.dropWhile fun g => isSpace g.code).reverse).flatMap Seg.octets

/-- Text of ASCII letters, digits and signs has nothing to trim. -/
theorem trimSpace_ascii {s : Bytes} (h : ∀ b ∈ s, b.toNat < 0x80 ∧ isSpace b.toNat = false) :
    trimSpace s = s := by
  have hsegs := segs_ascii fun b hb => (h b hb).1
  -- neither end has a space to drop
  have hkeep : ∀ l : List Seg, (∀ g ∈ l, isSpace g.code = false) →
      (l.dropWhile fun g => isSpace g.code) = l := by
    intro l hl
    cases l with
    | nil => rfl
    | cons g l => rw [List.dropWhile_cons, hl g (by simp)]; rfl
  have hspace : ∀ g ∈ segs s, isSpace g.code = false := by
    rw [hsegs]
    intro g hg
    obtain ⟨b, hb, rfl⟩ := List.mem_map.mp hg
    exact (h b hb).2
  unfold trimSpace
  dsimp only
  rw [hkeep _ hspace, hkeep _ fun g hg => hspace g (List.mem_reverse.mp hg), List.reverse_reverse,
    segs_flatMap_octets]

/-- `strings.Contains`. -/
def contains (s sub : Bytes) : Bool :=
  match s with
  | [] => sub.isPrefixOf []
  | b :: t => sub.isPrefixOf (b :: t) || contains t sub

theorem contains_iff {s sub : Bytes} : contains s sub = true ↔ sub <:+: s := by
  induction s with
  | nil => simp [contains, List.infix_nil]
  | cons b t ih =>
    unfold contains
    rw [Bool.or_eq_true, ih, List.isPrefixOf_iff_prefix, List.infix_cons_iff]

/-- What does not hold the octet between two texts is in one of them. -/
theorem contains_append_cons {sub : Bytes} {x : UInt8} (hx : x ∉ sub) (a b : Bytes) :
    contains (a ++ x :: b) sub = (contains a sub || contains b sub) := by
  rw [Bool.eq_iff_iff, Bool.or_eq_true, contains_iff, contains_iff, contains_iff,
    infix_append_cons hx]

/-- What does not begin with the first octet of a text is in the rest. -/
theorem contains_cons {sub : Bytes} {x : UInt8} (hne : sub ≠ []) (hx : sub.head? ≠ some x)
    (b : Bytes) : contains (x :: b) sub = contains b sub := by
  rw [Bool.eq_iff_iff, contains_iff, contains_iff, infix_cons hne hx]

/-- What is found in two texts with `": "` between them is in one of them. -/
theorem contains_colon {sub : Bytes} (hcolon : 58 ∉ sub) (hspace : sub.head? ≠ some 32)
    (hne : sub ≠ []) (a b : Bytes) :
    contains (a ++ lit ": " ++ b) sub = (contains a sub || contains b sub) := by
  have hlit : lit ": " = [58, 32] := by decide
  have hsep : a ++ lit ": " ++ b = a ++ 58 :: 32 :: b := by
    rw [hlit, List.append_assoc]
    rfl
  rw [hsep, contains_append_cons hcolon, contains_cons hne hspace]

/-- What is found in a wrapped error is in one of its two parts. -/
theorem contains_wrap {sub : Bytes} (hcolon : 58 ∉ sub) (hspace : sub.head? ≠ some 32)
    (hne : sub ≠ []) (what : String) (err : Bytes) :
    contains (wrap what err) sub = (contains (lit what) sub || contains err sub) :=
  contains_colon hcolon hspace hne _ _

/-! ## Header names -/

/-- An octet a header name may hold. -/
def isTokenByte (b : UInt8) : Bool :=
  let x := b.toNat
  decide (48 ≤ x ∧ x ≤ 57 ∨ 65 ≤ x ∧ x ≤ 90 ∨ 97 ≤ x ∧ x ≤ 122) ||
    (lit "!#$%&'*+-.^_`|~").contains b

/-- The letters of a header name with the case their position asks for:
    a capital at the start and after each hyphen. -/
def canonicalCase : Bool → Bytes → Bytes
  | _, [] => []
  | upper, b :: t =>
    let x := b.toNat
    let c :=
      if upper && decide (97 ≤ x ∧ x ≤ 122) then UInt8.ofNat (x - 32)
      else if !upper && decide (65 ≤ x ∧ x ≤ 90) then UInt8.ofNat (x + 32)
      else b
    c :: canonicalCase (decide (c = 45)) t

/-- `http.CanonicalHeaderKey`: a name with an octet that may not occur in
    one is left as it is. -/
def canonicalHeaderKey (k : Bytes) : Bytes := if k.all isTokenByte then canonicalCase true k else k

/-! ## Requests to the destination -/

/-- The request an exit sends; `headers` are under their canonical names. -/
structure DestRequest where
  method : Bytes
  url : Bytes
  headers : SortedMap Bytes Bytes
  body : Bytes
  deriving DecidableEq

/-- The answer of a destination; a header name has a list of values. -/
structure DestResponse where
  statusCode : Int64
  header : SortedMap Bytes (List Bytes)
  body : Bytes
  deriving DecidableEq

/-- What becomes of a request to the destination. -/
inductive DestOutcome where
  /-- `client.Do` fails. -/
  | unreachable (err : Bytes)
  /-- The answer's body breaks off while it is read. -/
  | broken (err : Bytes)
  | answered (resp : DestResponse)
  deriving DecidableEq

/-- `destReq.Header.Set` for each entry, in the order they are ranged over. -/
def setHeaders (order : List (Bytes × Bytes)) : SortedMap Bytes Bytes :=
  order.foldl (fun h e => h.insert (canonicalHeaderKey e.1) e.2) SortedMap.empty

/-- The first value of each header that has one. -/
def firstValues (header : SortedMap Bytes (List Bytes)) : SortedMap Bytes Bytes :=
  SortedMap.ofList (header.entries.filterMap fun e => e.2.head?.map fun v => (e.1, v))

end HopVault
