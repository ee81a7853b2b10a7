import HopVault.Directory.Circuit
import HopVault.Framework.Url
import HopVault.Onion.Handler

/-! # From registered addresses to URLs

    The directory lets a node register any host that is not blank. The
    client and the forwarding nodes put host and port into URLs as they
    are, and whoever is asked to call the URL takes it apart again. -/

namespace HopVault.Directory

open Framework Framework.Decimal Framework.Url

/-! ## What a URL denotes -/

/-- The URL has the authority `host:port`, which splits at its last colon
    into the two, and then the path and nothing else. -/
structure Denotes (url host port path : Bytes) : Prop where
  authority : authority url = host ++ 58 :: port
  split : splitLast 58 (Url.authority url) = some (host, port)
  path : afterAuthority url = path

/-- None of the characters `/`, `?`, `#` and `@`. -/
def PlainHost (host : Bytes) : Prop := ∀ b ∈ host, endsAuthority b = false ∧ b ≠ 64

/-- No digit delimits anything. -/
theorem not_delimiter_of_isDigit {b : UInt8} (h : isDigit b = true) :
    endsAuthority b = false ∧ b ≠ 64 ∧ b ≠ 58 := by
  refine ⟨?_, ?_, ?_⟩
  · by_contra hends
    simp only [endsAuthority, Bool.not_eq_false, Bool.or_eq_true, beq_iff_eq] at hends
    rcases hends with (rfl | rfl) | rfl <;> exact absurd h (by decide)
  · rintro rfl
    exact absurd h (by decide)
  · rintro rfl
    exact absurd h (by decide)

/-- Neither does anything in a port. -/
theorem not_delimiter_of_mem_itoa {i : Int} {b : UInt8} (h : b ∈ itoa i) :
    endsAuthority b = false ∧ b ≠ 64 ∧ b ≠ 58 := by
  cases i with
  | ofNat n => exact not_delimiter_of_isDigit (isDigit_of_mem_digits h)
  | negSucc n =>
    rcases List.mem_cons.mp h with rfl | h
    · decide
    · exact not_delimiter_of_isDigit (isDigit_of_mem_digits h)

/-- Host and port stand behind the scheme, up to the path. -/
theorem denotes_iff (host : Bytes) (port : Int) (path : Bytes) :
    Denotes (lit "http://" ++ (host ++ 58 :: itoa port) ++ 47 :: path) host (itoa port) (47 :: path) ↔
      PlainHost host := by
  have hscheme : lit "http://" = [104, 116, 116, 112, 58, 47, 47] := by decide +kernel
  have hafter : afterSlashes (lit "http://" ++ (host ++ 58 :: itoa port) ++ 47 :: path) =
      (host ++ 58 :: itoa port) ++ 47 :: path := by
    rw [hscheme, List.append_assoc]
    rfl
  constructor
  · intro h b hb
    -- what is left of the URL as its authority has no delimiter
    apply not_mem_authority
    rw [h.authority]
    exact List.mem_append_left _ hb
  · intro hplain
    -- neither the host nor the port ends the authority
    have hall : ∀ b ∈ host ++ 58 :: itoa port, endsAuthority b = false ∧ b ≠ 64 := by
      intro b hb
      rcases List.mem_append.mp hb with hb | hb
      · exact hplain b hb
      · rcases List.mem_cons.mp hb with rfl | hb
        · decide
        · exact ⟨(not_delimiter_of_mem_itoa hb).1, (not_delimiter_of_mem_itoa hb).2.1⟩
    have hauthority := authority_append hafter (fun b hb => (hall b hb).1)
      fun hat => (hall 64 hat).2 rfl
    constructor
    · exact hauthority
    · rw [hauthority]
      exact splitLast_append host fun hcolon => (not_delimiter_of_mem_itoa hcolon).2.2 rfl
    · exact afterAuthority_append hafter fun b hb => (hall b hb).1

/-! ## The URLs of a record -/

/-- The URLs that are built from a record denote the host and the port that
    have been registered: those the client posts a key and an onion to, and
    the one a forwarding node posts an onion to. -/
structure Survives (record : NodeRecord) : Prop where
  setup : Denotes (record.reported.nodeURL ++ lit "/setup") record.registration.host
    (itoa record.registration.port.toInt) (lit "/setup")
  onion : Denotes (record.reported.nodeURL ++ lit "/onion") record.registration.host
    (itoa record.registration.port.toInt) (lit "/onion")
  nextHop : Denotes (nextHopURL record.reported.addr) record.registration.host
    (itoa record.registration.port.toInt) (lit "/onion")

/-- **Addresses in URLs**: a record's address survives exactly if its host
    has no delimiter of URLs in it. -/
theorem addresses_survive (record : NodeRecord) :
    Survives record ↔ PlainHost record.registration.host := by
  have hcolon : lit ":" = [58] := by decide +kernel
  have hsetup : lit "/setup" = 47 :: lit "setup" := by decide +kernel
  have honion : lit "/onion" = 47 :: lit "onion" := by decide +kernel
  have haddr : record.reported.addr =
      record.registration.host ++ 58 :: itoa record.registration.port.toInt := by
    unfold HopVault.NodeRecord.addr
    rw [hcolon, List.append_assoc]
    rfl
  have hurl : record.reported.nodeURL = lit "http://" ++ record.reported.addr := by
    unfold HopVault.NodeRecord.nodeURL HopVault.NodeRecord.addr
    simp only [List.append_assoc]
  -- all three URLs have the same authority, so one of them decides
  constructor
  · intro h
    have hdenotes := h.setup
    rw [hurl, haddr, hsetup, denotes_iff] at hdenotes
    exact hdenotes
  · intro hplain
    constructor
    · rw [hurl, haddr, hsetup, denotes_iff]
      exact hplain
    · rw [hurl, haddr, honion, denotes_iff]
      exact hplain
    · rw [nextHopURL, haddr, honion, denotes_iff]
      exact hplain

/-- A host with a path in it is accepted, and its URLs call another. -/
theorem address_lost : ∃ node, validateNodeRegistration node = .ok () ∧
    node.host = lit "10.0.0.1/x" ∧ ¬Survives ⟨node, 0, .healthy⟩ := by
  refine ⟨⟨lit "123e4567-e89b-12d3-a456-426614174999", lit "guard", lit "10.0.0.1/x", 80, lit "k"⟩,
    by decide +kernel, rfl, ?_⟩
  intro h
  have hsplit := h.setup.authority
  revert hsplit
  decide +kernel

end HopVault.Directory
