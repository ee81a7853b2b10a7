import HopVault.Http

/-! # Query strings

    The part of `net/url` and `strconv` that `parseHops` of
    `directory-server/main.go` uses, and `parseHops` itself. -/

namespace HopVault.Directory

open Framework Framework.Decimal Framework.Utf8

/-- `strings.Cut` at an octet; the text after it is empty when there is
    none. -/
def cut (s : Bytes) (sep : UInt8) : Bytes × Bytes :=
  (s.takeWhile (· != sep), (s.dropWhile (· != sep)).drop 1)

/-- `url.QueryUnescape`; `none` is a malformed escape. -/
def queryUnescape : Bytes → Option Bytes
  | [] => some []
  | 37 :: a :: b :: t => do
    let i ← Json.hexVal a
    let j ← Json.hexVal b
    let rest ← queryUnescape t
    some (UInt8.ofNat (i * 16 + j) :: rest)
  | 37 :: _ => none
  | b :: t => (queryUnescape t).map fun rest => (if b = 43 then 32 else b) :: rest

/-- One setting of a query. Text with a semicolon, or with a malformed
    escape, is passed over. -/
def parseSetting (setting : Bytes) : Option (Bytes × Bytes) :=
  if setting.contains 59 ∨ setting = [] then none
  else do
    let key ← queryUnescape (cut setting 61).1
    let value ← queryUnescape (cut setting 61).2
    some (key, value)

/-- `url.ParseQuery`, whose error `URL.Query` discards. -/
def parseQuery (query : Bytes) : List (Bytes × Bytes) := (query.splitOn 38).filterMap parseSetting

/-- `Values.Get`: the first value of a key, or nothing. -/
def queryGet (query key : Bytes) : Bytes := ((parseQuery query).lookup key).getD []

/-- `strconv.Atoi`; `none` is a syntax or range error. -/
def atoi (s : Bytes) : Option Int :=
  match parseInt s with
  | some i => if -2 ^ 63 ≤ i ∧ i < 2 ^ 63 then some i else none
  | none => none

/-- `parseHops` of a request with the given query string. -/
def parseHops (rawQuery : Bytes) : Result Int :=
  let raw := trimSpace (queryGet rawQuery (lit "hops"))
  if raw = [] then .ok 3
  else
    match atoi raw with
    | none => .error (lit "hops must be 1 or 3")
    | some hops => if hops ≠ 1 ∧ hops ≠ 3 then .error (lit "hops must be 1 or 3") else .ok hops

/-- Only one and three hops get through. -/
theorem parseHops_eq_ok {rawQuery : Bytes} {hops : Int} (h : parseHops rawQuery = .ok hops) :
    hops = 1 ∨ hops = 3 := by
  unfold parseHops at h
  dsimp only at h
  split_ifs at h with hempty
  · exact .inr (Except.ok.inj h).symm
  · split at h
    · cases h
    · split_ifs at h with hbad
      rw [← Except.ok.inj h]
      omega

/-- A request that does not say is for three hops. -/
theorem parseHops_absent {rawQuery : Bytes} (h : queryGet rawQuery (lit "hops") = []) :
    parseHops rawQuery = .ok 3 := by
  unfold parseHops
  rw [h]
  rfl

/-- The query the client sends for a circuit of the given length. -/
theorem parseHops_client {hops : Int} (h : hops = 1 ∨ hops = 3) :
    parseHops (lit "hops=" ++ itoa hops) = .ok hops := by
  rcases h with rfl | rfl
  · decide +kernel
  · decide +kernel

example : parseHops (lit "x=%zz&hops=%33&hops=1") = .ok 3 := by decide +kernel

end HopVault.Directory
