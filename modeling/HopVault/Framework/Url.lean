import Mathlib.Data.List.TakeWhile
import HopVault.Framework.Utf8

/-! # Reading a URL

    The parts of a URL as a client takes them apart: the authority, which
    stands between `//` and the first `/`, `?` or `#`, less the user before
    an `@` in it; what follows the authority; and the two sides of a last
    colon. -/

namespace Framework.Url

/-! ## Parts -/

/-- An octet that ends the authority: `/`, `?` or `#`. -/
def endsAuthority (b : UInt8) : Bool := b == 47 || b == 63 || b == 35

/-- What follows the first `//`. -/
def afterSlashes : Bytes → Bytes
  | [] => []
  | b :: rest => if b = 47 ∧ rest.head? = some 47 then rest.tail else afterSlashes rest

/-- What follows the last `c`, or the whole string if there is none. -/
def afterLast (c : UInt8) (s : Bytes) : Bytes := (s.reverse.takeWhile (· != c)).reverse

/-- The two sides of the last `c`. -/
def splitLast (c : UInt8) (s : Bytes) : Option (Bytes × Bytes) :=
  if c ∈ s then some ((s.reverse.dropWhile (· != c)).tail.reverse, afterLast c s) else none

def authority (url : Bytes) : Bytes :=
  afterLast 64 ((afterSlashes url).takeWhile fun b => !endsAuthority b)

def afterAuthority (url : Bytes) : Bytes := (afterSlashes url).dropWhile fun b => !endsAuthority b

/-! ## Strings without a delimiter -/

theorem takeWhile_ne {c : UInt8} {s : Bytes} (h : c ∉ s) (t : Bytes) :
    (s ++ t).takeWhile (· != c) = s ++ t.takeWhile (· != c) := by
  apply List.takeWhile_append_of_pos
  intro b hb
  rw [bne_iff_ne]
  rintro rfl
  exact h hb

theorem dropWhile_ne {c : UInt8} {s : Bytes} (h : c ∉ s) (t : Bytes) :
    (s ++ t).dropWhile (· != c) = t.dropWhile (· != c) := by
  apply List.dropWhile_append_of_pos
  intro b hb
  rw [bne_iff_ne]
  rintro rfl
  exact h hb

theorem afterLast_of_not_mem {c : UInt8} {s : Bytes} (h : c ∉ s) : afterLast c s = s := by
  have hrev := takeWhile_ne (fun hc => h (List.mem_reverse.mp hc)) ([] : Bytes)
  rw [List.append_nil, List.takeWhile_nil, List.append_nil] at hrev
  rw [afterLast, hrev, List.reverse_reverse]

/-- A string splits at its last `c`. -/
theorem splitLast_append {c : UInt8} (s : Bytes) {t : Bytes} (h : c ∉ t) :
    splitLast c (s ++ c :: t) = some (s, t) := by
  have hrev : (s ++ c :: t).reverse = t.reverse ++ c :: s.reverse := by simp
  have hnot : c ∉ t.reverse := fun hc => h (List.mem_reverse.mp hc)
  unfold splitLast afterLast
  rw [if_pos (by simp), hrev, takeWhile_ne hnot, dropWhile_ne hnot,
    List.takeWhile_cons_of_neg (by simp), List.dropWhile_cons_of_neg (by simp)]
  simp

/-! ## URLs put together -/

/-- No delimiter is left in an authority. -/
theorem not_mem_authority {url : Bytes} {b : UInt8} (h : b ∈ authority url) :
    endsAuthority b = false ∧ b ≠ 64 := by
  unfold authority afterLast at h
  rw [List.mem_reverse] at h
  constructor
  · have hmem := List.mem_reverse.mp ((List.takeWhile_sublist _).subset h)
    simpa using List.mem_takeWhile_imp hmem
  · simpa using List.mem_takeWhile_imp h

/-- Behind a scheme stands the authority, up to the path. -/
theorem authority_append {url host path : Bytes} (hurl : afterSlashes url = host ++ 47 :: path)
    (hends : ∀ b ∈ host, endsAuthority b = false) (huser : 64 ∉ host) : authority url = host := by
  have hall : ∀ b ∈ host, (!endsAuthority b) = true := by
    intro b hb
    rw [hends b hb]
    rfl
  rw [authority, hurl, List.takeWhile_append_of_pos hall, List.takeWhile_cons_of_neg (by decide),
    List.append_nil, afterLast_of_not_mem huser]

/-- And then the path. -/
theorem afterAuthority_append {url host path : Bytes} (hurl : afterSlashes url = host ++ 47 :: path)
    (hends : ∀ b ∈ host, endsAuthority b = false) : afterAuthority url = 47 :: path := by
  have hall : ∀ b ∈ host, (!endsAuthority b) = true := by
    intro b hb
    rw [hends b hb]
    rfl
  rw [afterAuthority, hurl, List.dropWhile_append_of_pos hall,
    List.dropWhile_cons_of_neg (by decide)]

end Framework.Url
