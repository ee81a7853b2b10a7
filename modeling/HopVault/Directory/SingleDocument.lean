import HopVault.Directory.LiveNode
import HopVault.Framework.JsonText

/-! # One document in a registration

    `registerHandler` decodes the first JSON value of the body and asks the
    decoder whether there is `More`. That question is meant for the inside
    of an array or an object: at their closing bracket the answer is no,
    and at the top level it is no in front of a stray one. -/

namespace HopVault.Directory

open Framework Framework.Json

variable (formatTime : Int → Bytes) (r : NodeRegistry) (now : Int) {body : Bytes}

/-! ## What a body may be -/

/-- The body is one JSON value and white space around it, and the value is
    an object with members of a registration only. -/
def OneDocument (body : Bytes) : Prop :=
  ∃ ms, parse body = some (.obj ms) ∧
    ∀ m ∈ ms, ∃ f ∈ NodeRegistration.fields, foldName f.name = foldName m.1

variable (body) in
/-- One document is stored and nothing else, and whatever else follows the
    first value is answered 400. -/
structure TakesOneDocument : Prop where
  stored : (registerHandler formatTime r now body).1.statusCode = statusCreated → OneDocument body
  refused : ∀ j rest, parsePrefix body = some (j, rest) → skipWs rest ≠ [] →
    (registerHandler formatTime r now body).1.statusCode = statusBadRequest ∧
      (registerHandler formatTime r now body).2 = r

/-- An acceptable registration, and then a closing bracket. -/
def StrayBracket (body : Bytes) : Prop :=
  ∃ payload rest b tail, decodeStrict NodeRegistration.fields .zero body = some (payload, rest) ∧
    validateNodeRegistration payload = .ok () ∧ skipWs rest = b :: tail ∧ (b = 93 ∨ b = 125)

/-! ## What the handler takes -/

/-- `More` says no at the end of the text and in front of a closing
    bracket. -/
theorem decoderMore_eq_false {rest : Bytes} : decoderMore rest = false ↔
    skipWs rest = [] ∨ ∃ b tail, skipWs rest = b :: tail ∧ (b = 93 ∨ b = 125) := by
  unfold decoderMore
  cases hrest : skipWs rest with
  | nil => exact iff_of_true rfl (.inl rfl)
  | cons b tail =>
    simp only [reduceCtorEq, false_or, List.cons.injEq]
    constructor
    · intro h
      refine ⟨b, tail, ⟨rfl, rfl⟩, ?_⟩
      by_contra hne
      push Not at hne
      simp [hne.1, hne.2] at h
    · intro h
      obtain ⟨b', tail', ⟨rfl, rfl⟩, rfl | rfl⟩ := h
      · rfl
      · rfl

/-- A registration is stored if its value is acceptable and `More` says
    no, and is refused without a trace otherwise. -/
theorem registerHandler_status (formatTime : Int → Bytes) (r : NodeRegistry) (now : Int)
    (body : Bytes) :
    ((∃ payload rest, decodeStrict NodeRegistration.fields .zero body = some (payload, rest) ∧
        decoderMore rest = false ∧ validateNodeRegistration payload = .ok ()) ∧
      (registerHandler formatTime r now body).1.statusCode = statusCreated) ∨
    ((¬∃ payload rest, decodeStrict NodeRegistration.fields .zero body = some (payload, rest) ∧
        decoderMore rest = false ∧ validateNodeRegistration payload = .ok ()) ∧
      (registerHandler formatTime r now body).1.statusCode = statusBadRequest ∧
      (registerHandler formatTime r now body).2 = r) := by
  unfold registerHandler
  cases hdecode : decodeStrict NodeRegistration.fields .zero body with
  | none => exact .inr ⟨by simp, rfl, rfl⟩
  | some x =>
    obtain ⟨payload, rest⟩ := x
    dsimp only
    by_cases hmore : decoderMore rest = true
    · rw [if_pos hmore]
      refine .inr ⟨?_, rfl, rfl⟩
      -- something follows the document, so it is not one that was taken
      rintro ⟨payload', rest', heq, hno, -⟩
      cases heq
      rw [hmore] at hno
      cases hno
    · rw [if_neg hmore]
      cases hvalid : validateNodeRegistration payload with
      | error err =>
        -- the payload is refused, so no decoding of the body has a valid one
        refine .inr ⟨?_, rfl, rfl⟩
        rintro ⟨payload', rest', heq, -, hok⟩
        cases heq
        rw [hvalid] at hok
        cases hok
      | ok _ => exact .inl ⟨⟨payload, rest, rfl, by simpa using hmore, hvalid⟩, rfl⟩

/-- Nothing but an object with members of a registration is acceptable. -/
theorem members_of_decodeStrict {payload : NodeRegistration} {rest : Bytes}
    (hdecode : decodeStrict NodeRegistration.fields .zero body = some (payload, rest))
    (hvalid : validateNodeRegistration payload = .ok ()) :
    ∃ ms, parsePrefix body = some (.obj ms, rest) ∧
      ∀ m ∈ ms, ∃ f ∈ NodeRegistration.fields, foldName f.name = foldName m.1 := by
  unfold decodeStrict at hdecode
  cases hparse : parsePrefix body with
  | none =>
    rw [hparse] at hdecode
    cases hdecode
  | some x =>
    obtain ⟨j, rest'⟩ := x
    rw [hparse] at hdecode
    obtain ⟨payload', hfill, heq⟩ := Option.map_eq_some_iff.mp hdecode
    cases heq
    -- only an object fills a record with fields
    cases j with
    | obj ms => exact ⟨ms, rfl, fillMembers_strict hfill⟩
    | null =>
      -- `null` leaves all fields empty, and an empty node ID is not accepted
      obtain rfl := Option.some.inj hfill
      cases hvalid
    | _ => cases hfill

/-- **One document**: the handler takes exactly one document for a
    registration, and refuses whatever else follows, exactly if what
    follows is not a closing bracket behind an acceptable registration. -/
theorem takes_one_document (formatTime : Int → Bytes) (r : NodeRegistry) (now : Int) (body : Bytes) :
    TakesOneDocument formatTime r now body ↔ ¬StrayBracket body := by
  -- either the registration is created or the answer is a 400 and the registry stays
  rcases registerHandler_status formatTime r now body with
    ⟨⟨payload, rest, hdecode, hmore, hvalid⟩, hcreated⟩ | ⟨hnone, hbad, hunchanged⟩
  · obtain ⟨ms, hparse, hmembers⟩ := members_of_decodeStrict hdecode hvalid
    -- what was decoded is a prefix; the body is one document if nothing follows
    have hdocument : OneDocument body ↔ skipWs rest = [] := by
      unfold OneDocument parse
      rw [hparse]
      dsimp only
      split_ifs with hrest
      · exact iff_of_true ⟨ms, rfl, hmembers⟩ hrest
      · refine iff_of_false ?_ hrest
        rintro ⟨ms', hms', -⟩
        cases hms'
    constructor
    · rintro htakes ⟨payload', rest', b, tail, hdecode', -, hrest', -⟩
      rw [hdecode] at hdecode'
      cases hdecode'
      rw [hdocument.mp (htakes.stored hcreated)] at hrest'
      cases hrest'
    · intro hstray
      have hrest : skipWs rest = [] := by
        rcases decoderMore_eq_false.mp hmore with hrest | ⟨b, tail, hrest, hb⟩
        · exact hrest
        · exact absurd ⟨payload, rest, b, tail, hdecode, hvalid, hrest, hb⟩ hstray
      constructor
      · intro _
        exact hdocument.mpr hrest
      · intro j rest' hparse' hrest'
        rw [hparse] at hparse'
        cases hparse'
        exact absurd hrest hrest'
  · -- a body that is not taken is neither stored nor answered with 201
    refine iff_of_true ?_ ?_
    · constructor
      · intro hcreated
        rw [hbad] at hcreated
        cases hcreated
      · intro j rest _ _
        exact ⟨hbad, hunchanged⟩
    · rintro ⟨payload, rest, b, tail, hdecode, hvalid, hrest, hb⟩
      exact hnone ⟨payload, rest, hdecode, decoderMore_eq_false.mpr (.inr ⟨b, tail, hrest, hb⟩), hvalid⟩

/-- A registration with a stray `]` behind it is stored. -/
theorem stray_bracket_taken :
    (registerHandler (fun _ => []) .empty 0 (registerBody Sample.liveNode ++ lit "]")).1.statusCode =
      statusCreated ∧
    (registerHandler (fun _ => []) .empty 0 (registerBody Sample.liveNode ++ lit "]")).2 ≠ .empty ∧
    ¬OneDocument (registerBody Sample.liveNode ++ lit "]") := by
  refine ⟨by decide +kernel, by decide +kernel, ?_⟩
  rintro ⟨ms, hparse, -⟩
  have hnone : parse (registerBody Sample.liveNode ++ lit "]") = none := by decide +kernel
  rw [hnone] at hparse
  cases hparse

end HopVault.Directory
