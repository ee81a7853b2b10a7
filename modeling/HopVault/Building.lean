import HopVault.HonestRun

/-! # The ciphertexts of an onion

    What `Encrypt` and `BuildOnionWithHops` may return, whatever random
    bits they draw, and what opens their ciphertexts. -/

namespace HopVault

open Framework Framework.Json Framework.Prog

variable {X : Externals}

/-- What `encrypt` has made opens with the same key. -/
theorem decrypt_of_yields (hX : X.LawfulAEAD) {key plaintext ct : Bytes}
    (h : Yields (encrypt X key plaintext) (.ok ct)) : decrypt X key ct = .ok plaintext := by
  unfold encrypt at h
  cases hkey : newCipher key with
  | error err =>
    rw [hkey] at h
    cases yields_ret.mp h
  | ok _ =>
    rw [hkey] at h
    obtain ⟨nonce, hret⟩ := yields_op.mp h
    cases yields_ret.mp hret
    exact decrypt_sealed hX hkey nonce.2 plaintext

/-- A layer that is wrapped opens to itself. -/
theorem decrypt_of_wrapLayer (hX : X.LawfulAEAD) {key nextHop payload ct : Bytes} {name : String}
    (h : Yields (wrapLayer X key nextHop payload name) (.ok ct)) :
    decrypt X key ct = .ok (Layer.json ⟨nextHop, payload⟩).encode := by
  unfold wrapLayer at h
  obtain ⟨r, henc, hret⟩ := yields_bind.mp h
  cases r with
  | error err => cases yields_ret.mp hret
  | ok ct' =>
    cases yields_ret.mp hret
    exact decrypt_of_yields hX henc

/-- So does a response. -/
theorem decrypt_of_encryptExitResponse (hX : X.LawfulAEAD) {key ct : Bytes} {resp : ExitResponse}
    (h : Yields (encryptExitResponse X key resp) (.ok ct)) :
    decrypt X key ct = .ok resp.json.encode := by
  unfold encryptExitResponse at h
  obtain ⟨r, henc, hret⟩ := yields_bind.mp h
  cases r with
  | error err => cases yields_ret.mp hret
  | ok ct' =>
    cases yields_ret.mp hret
    exact decrypt_of_yields hX henc

variable {keys : SessionKeys} {layer : ExitLayer} {relayAddr exitAddr payload : Bytes}

/-- An onion for one hop is the exit layer, for the guard. -/
theorem yields_buildOnion_one : Yields (buildOnionWithHops X keys layer relayAddr exitAddr 1)
    (.ok payload) ↔ Yields (encrypt X keys.guardKey layer.json.encode) (.ok payload) := by
  simp only [buildOnionWithHops, validateHops, true_or, if_true, yields_bind]
  constructor
  · intro h
    obtain ⟨r, henc, hret⟩ := h
    cases r with
    | error err => cases yields_ret.mp hret
    | ok exitCT =>
      cases yields_ret.mp hret
      exact henc
  · intro h
    exact ⟨_, h, .ret⟩

/-- An onion for three hops is built out of three ciphertexts. -/
theorem yields_buildOnion_three : Yields (buildOnionWithHops X keys layer relayAddr exitAddr 3)
    (.ok payload) ↔ ∃ exitCT relayCT, Yields (encrypt X keys.exitKey layer.json.encode) (.ok exitCT) ∧
      Yields (wrapLayer X keys.relayKey exitAddr exitCT "relay") (.ok relayCT) ∧
      Yields (wrapLayer X keys.guardKey relayAddr relayCT "guard") (.ok payload) := by
  have h31 : ¬(3 : Int) = 1 := by decide
  simp only [buildOnionWithHops, validateHops, or_true, if_true, if_neg h31, yields_bind]
  constructor
  · intro h
    obtain ⟨exit, hexit, h⟩ := h
    cases exit with
    | error err => cases yields_ret.mp h
    | ok exitCT =>
      obtain ⟨relay, hrelay, h⟩ := yields_bind.mp h
      cases relay with
      | error err => cases yields_ret.mp h
      | ok relayCT => exact ⟨exitCT, relayCT, hexit, hrelay, h⟩
  · intro h
    obtain ⟨exitCT, relayCT, hexit, hrelay, hguard⟩ := h
    exact ⟨_, hexit, yields_bind.mpr ⟨_, hrelay, hguard⟩⟩

end HopVault
