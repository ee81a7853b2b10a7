import HopVault.Directory.LiveNode
import HopVault.Directory.Uuid

/-! # Trimmed node IDs

    `registerHandler` stores a record under the ID as it came, while
    `heartbeatHandler` and `deregisterHandler` trim the ID of the path
    first. The two meet because no string that `isUUID` accepts holds white
    space: the low octet of a white-space rune is never a digit. -/

namespace HopVault.Directory

open Framework Framework.Json Framework.Utf8

/-! ## Trimming -/

/-- Unicode white space only. -/
def White (s : Bytes) : Prop := ∀ g ∈ segs s, isSpace g.code = true

instance (s : Bytes) : Decidable (White s) := inferInstanceAs (Decidable (∀ g ∈ segs s, _))

/-- Runes only, none of which is white space. -/
def Solid (s : Bytes) : Prop := ∀ g ∈ segs s, (∃ c o, g = .rune c o) ∧ isSpace g.code = false

theorem dropWhile_append_of_none {α : Type} {p : α → Bool} {l : List α} (hne : l ≠ [])
    (h : ∀ a ∈ l, p a = false) (l' : List α) : (l ++ l').dropWhile p = l ++ l' := by
  cases l with
  | nil => exact absurd rfl hne
  | cons a l =>
    have ha := h a (by simp)
    rw [List.cons_append, List.dropWhile_cons_of_neg (by simp [ha])]

/-- White space is well-formed. -/
theorem White.rune {s : Bytes} (h : White s) {g : Seg} (hg : g ∈ segs s) : ∃ c o, g = .rune c o := by
  cases g with
  | rune c o => exact ⟨c, o, rfl⟩
  | bad b =>
    -- an octet that starts no rune counts as U+FFFD
    have hno : isSpace 0xFFFD = false := by decide
    have hspace : isSpace 0xFFFD = true := h _ hg
    rw [hno] at hspace
    cases hspace

/-- White space on both sides is what is trimmed. -/
theorem trimSpace_surrounded {s ws ws' : Bytes} (hs : Solid s) (hne : s ≠ []) (hws : White ws)
    (hws' : White ws') : trimSpace (ws ++ s ++ ws') = s := by
  have hsegs : segs (ws ++ s ++ ws') = segs ws ++ segs s ++ segs ws' := by
    have hcut := segs_flatMap_of_proper (segs ws ++ segs s ++ segs ws') ?_
    · simpa only [List.flatMap_append, segs_flatMap_octets] using hcut
    · -- every segment is a whole rune, so the text cuts at the two seams
      intro g hg
      rcases List.mem_append.mp hg with hg | hg
      · rcases List.mem_append.mp hg with hg | hg
        · exact ⟨segs_proper _ _ hg, hws.rune hg⟩
        · exact ⟨segs_proper _ _ hg, (hs g hg).1⟩
      · exact ⟨segs_proper _ _ hg, hws'.rune hg⟩
  have hnil : segs s ≠ [] := by
    intro hnil
    apply hne
    rw [← segs_flatMap_octets s, hnil]
    rfl
  unfold trimSpace
  dsimp only
  rw [hsegs, List.append_assoc, List.dropWhile_append_of_pos hws,
    dropWhile_append_of_none hnil (fun g hg => (hs g hg).2), List.reverse_append,
    List.dropWhile_append_of_pos (fun g hg => hws' g (List.mem_reverse.mp hg))]
  -- backwards too the first segment that stays is one of the ID
  have hback := dropWhile_append_of_none (p := fun g : Seg => isSpace g.code)
    (l := (segs s).reverse) (by simpa using hnil) (fun g hg => (hs g (List.mem_reverse.mp hg)).2) []
  rw [List.append_nil] at hback
  rw [hback, List.reverse_reverse, segs_flatMap_octets]

/-! ## Accepted IDs -/

/-- A rune that passes is no white space, whatever its low octet is taken
    for, and is not the mark of an invalid octet. -/
theorem Passes.solid {i : Nat} {g : Seg} (h : Passes i g) :
    (∃ c o, g = .rune c o) ∧ isSpace g.code = false := by
  -- in all cases the low octet of the code is a hyphen or a hex digit
  have hcode : g.code = 45 ∨ 48 ≤ g.code % 256 ∧ g.code % 256 ≤ 57 ∨
      97 ≤ g.code % 256 ∧ g.code % 256 ≤ 102 ∨ 65 ≤ g.code % 256 ∧ g.code % 256 ≤ 70 := by
    unfold Passes at h
    split_ifs at h
    · exact .inl h
    · right
      unfold isHexDigit at h
      simpa using h
  constructor
  · cases g with
    | rune c o => exact ⟨c, o, rfl⟩
    | bad b =>
      -- U+FFFD ends in FD, which is neither
      have hbad : (Seg.bad b).code = 0xFFFD := rfl
      omega
  · unfold isSpace
    rw [decide_eq_false_iff_not]
    omega

theorem solid_of_isUUID {id : Bytes} (h : isUUID id = true) : Solid id := by
  intro g hg
  obtain ⟨front, back, hsplit⟩ := List.append_of_mem hg
  exact ((isUUID_iff.mp h).2 front g back hsplit).solid

theorem ne_nil_of_isUUID {id : Bytes} (h : isUUID id = true) : id ≠ [] := by
  intro hnil
  have hlength := (isUUID_iff.mp h).1
  rw [hnil] at hlength
  cases hlength

theorem isUUID_of_validate {node : NodeRegistration} (h : validateNodeRegistration node = .ok ()) :
    isUUID node.nodeID = true := by
  unfold validateNodeRegistration at h
  split_ifs at h with _ huuid
  simpa using huuid

theorem trimSpace_isUUID {id ws ws' : Bytes} (h : isUUID id = true) (hws : White ws)
    (hws' : White ws') : trimSpace (ws ++ id ++ ws') = id :=
  trimSpace_surrounded (solid_of_isUUID h) (ne_nil_of_isUUID h) hws hws'

/-! ## The handlers -/

variable {formatTime : Int → Bytes}

/-- The record under `id` becomes what `f` makes of it, and no other
    changes. -/
def ActsOn (id : Bytes) (f : Option NodeRecord → Option NodeRecord) (r r' : NodeRegistry) : Prop :=
  ∀ other, r'.get? other = if other = id then f (r.get? id) else r.get? other

/-- What a heartbeat makes of a record. -/
def beaten (now : Int) (record : NodeRecord) : NodeRecord :=
  { record with lastSeen := now, status := .healthy }

variable (formatTime) in
theorem actsOn_heartbeatHandler {r : NodeRegistry} {pathValue : Bytes}
    (h : trimSpace pathValue ≠ []) (now : Int) :
    ActsOn (trimSpace pathValue) (Option.map (beaten now)) r
      (heartbeatHandler formatTime r now pathValue).2 := by
  intro other
  rw [get?_heartbeatHandler]
  by_cases hid : other = trimSpace pathValue
  · rw [if_pos ⟨h, hid⟩, if_pos hid, hid]
    rfl
  · rw [if_neg fun hboth => hid hboth.2, if_neg hid]

theorem actsOn_deregisterHandler {r : NodeRegistry} {pathValue : Bytes}
    (h : trimSpace pathValue ≠ []) :
    ActsOn (trimSpace pathValue) (fun _ => none) r (deregisterHandler r pathValue).2 := by
  intro other
  rw [get?_deregisterHandler]
  by_cases hid : other = trimSpace pathValue
  · rw [if_pos ⟨h, hid⟩, if_pos hid]
  · rw [if_neg fun hboth => hid hboth.2, if_neg hid]

variable (formatTime) in
/-- What a registration leaves in the registry. -/
theorem get?_registerHandler {r : NodeRegistry} {body rest : Bytes} {node : NodeRegistration}
    (hdecode : decodeStrict NodeRegistration.fields .zero body = some (node, rest))
    (hmore : decoderMore rest = false) (hvalid : validateNodeRegistration node = .ok ())
    (now : Int) : (registerHandler formatTime r now body).2.get? node.nodeID = some ⟨node, now, .healthy⟩ := by
  have hkept : (registerHandler formatTime r now body).2 = (r.upsert node now).2 := by
    unfold registerHandler
    simp only [hdecode, hmore, Bool.false_eq_true, if_false, hvalid]
  rw [hkept, NodeRegistry.get?_upsert, if_pos rfl]

variable (formatTime) in
/-- The answers to a stored node. -/
theorem answers_stored {r : NodeRegistry} {pathValue : Bytes} {record : NodeRecord}
    (hne : trimSpace pathValue ≠ []) (hget : r.get? (trimSpace pathValue) = some record)
    (now : Int) :
    (heartbeatHandler formatTime r now pathValue).1 =
      writeJSON statusOK ((beaten now record).json formatTime) ∧
    (deregisterHandler r pathValue).1 =
      writeJSON statusOK (obj [(lit "nodeId", str (trimSpace pathValue)),
        (lit "status", str (lit "deregistered"))]) := by
  constructor
  · unfold heartbeatHandler NodeRegistry.heartbeat
    simp only [if_neg hne, hget]
    rfl
  · unfold deregisterHandler NodeRegistry.delete
    simp only [if_neg hne, hget]

/-- **Every registered node is addressable.** The ID of an accepted
    registration is not trimmed, and with white space around it a heartbeat
    and a deregistration act on the record stored under it only. -/
theorem registered_addressable {node : NodeRegistration}
    (hvalid : validateNodeRegistration node = .ok ()) {ws ws' : Bytes} (hws : White ws)
    (hws' : White ws') (formatTime : Int → Bytes) :
    trimSpace node.nodeID = node.nodeID ∧ node.nodeID ≠ [] ∧
    -- on any registry
    (∀ (r : NodeRegistry) (now : Int),
      ActsOn node.nodeID (Option.map (beaten now)) r
        (heartbeatHandler formatTime r now (ws ++ node.nodeID ++ ws')).2 ∧
      ActsOn node.nodeID (fun _ => none) r (deregisterHandler r (ws ++ node.nodeID ++ ws')).2) ∧
    -- on one that has stored the registration
    ∀ (r : NodeRegistry) (stored now : Int) (body rest : Bytes),
      decodeStrict NodeRegistration.fields .zero body = some (node, rest) →
      decoderMore rest = false →
      (registerHandler formatTime r stored body).2.get? node.nodeID =
        some ⟨node, stored, .healthy⟩ ∧
      (heartbeatHandler formatTime (registerHandler formatTime r stored body).2 now
        (ws ++ node.nodeID ++ ws')).1 = writeJSON statusOK (NodeRecord.json formatTime
          ⟨node, now, .healthy⟩) ∧
      (deregisterHandler (registerHandler formatTime r stored body).2
        (ws ++ node.nodeID ++ ws')).1 = writeJSON statusOK (obj [(lit "nodeId", str node.nodeID),
          (lit "status", str (lit "deregistered"))]) := by
  have huuid := isUUID_of_validate hvalid
  have hnone : White [] := by
    intro g hg
    cases hg
  have htrim := trimSpace_isUUID huuid hnone hnone
  rw [List.nil_append, List.append_nil] at htrim
  have hpath := trimSpace_isUUID huuid hws hws'
  have hnil : trimSpace (ws ++ node.nodeID ++ ws') ≠ [] := by
    rw [hpath]
    exact ne_nil_of_isUUID huuid
  refine ⟨htrim, ne_nil_of_isUUID huuid, ?_, ?_⟩
  · intro r now
    have hbeat := actsOn_heartbeatHandler formatTime (r := r) hnil now
    have hderegister := actsOn_deregisterHandler (r := r) hnil
    rw [hpath] at hbeat hderegister
    exact ⟨hbeat, hderegister⟩
  · intro r stored now body rest hdecode hmore
    have hget := get?_registerHandler formatTime (r := r) hdecode hmore hvalid
    have hstored := hget stored
    rw [← hpath] at hstored
    have hanswers := answers_stored formatTime hnil hstored now
    rw [hpath] at hanswers
    exact ⟨hget stored, hanswers.1, hanswers.2⟩

namespace Sample

/-- A registration with the low octet of U+0130 in place of a digit. -/
def disguisedNode : NodeRegistration :=
  ⟨lit "İ3e4567-e89b-12d3-a456-426614174999", lit "guard", lit "127.0.0.1", 8080, lit "pub"⟩

end Sample

/-- With an ideographic space before the ID and a no-break space after it. -/
theorem registered_addressable_disguised :
    trimSpace Sample.disguisedNode.nodeID = Sample.disguisedNode.nodeID ∧
    ActsOn Sample.disguisedNode.nodeID (fun _ => none)
      (NodeRegistry.upsert .empty Sample.disguisedNode 0).2
      (deregisterHandler (NodeRegistry.upsert .empty Sample.disguisedNode 0).2
        ([0xE3, 0x80, 0x80] ++ Sample.disguisedNode.nodeID ++ [0xC2, 0xA0])).2 := by
  have hvalid : validateNodeRegistration Sample.disguisedNode = .ok () := by decide +kernel
  have hideographic : White [0xE3, 0x80, 0x80] := by decide +kernel
  have hnobreak : White [0xC2, 0xA0] := by decide +kernel
  have h := registered_addressable hvalid hideographic hnobreak fun _ => []
  exact ⟨h.1, (h.2.2.1 _ 0).2⟩

end HopVault.Directory
