import Coivitas.Identity.DelegationAttenuation

/-! # The validity window of verified tokens

The schema asks for the format of a timestamp only. A text of that format whose fields are
out of range denotes no instant, and both time checks are comparisons, which are false for
it: such a token was issued at any time and never expires.
-/

namespace Coivitas.Identity

open Foundation Coivitas.Types

/-- Both timestamps denote instants, and `n` lies between them. -/
def CapabilityToken.ValidAt (token : CapabilityToken) (n : Int) : Prop :=
  ∃ issued ∈ Calendar.getTime token.issuedAt, ∃ expires ∈ Calendar.getTime token.expiresAt,
    issued ≤ n ∧ n < expires

/-- Month, day and time of day are within their ranges. -/
def FieldsInRange (timestamp : String) : Prop := Calendar.InRange (Calendar.stamp timestamp)

instance (timestamp : String) : Decidable (FieldsInRange timestamp) :=
  inferInstanceAs (Decidable (Calendar.InRange _))

section Verified

variable {P : SignaturePorts} {token : CapabilityToken} {now : String}
  {resolvedKeys : Option ResolvedPublicKeys}

/-- The format and the two time checks, whatever key signed the token. -/
theorem times_of_verified (h : verifyCapabilityToken P token now resolvedKeys = .ok ()) :
    (Calendar.isIsoText token.issuedAt = true ∧ Calendar.isIsoText token.expiresAt = true) ∧
      ¬ issuedInFuture token.issuedAt now ∧ ¬ isTimestampExpired token.expiresAt now := by
  simp only [verifyCapabilityToken, bind_eq_ok, exists_unit, require_eq_ok,
    CapabilityToken.isValid, Bool.and_eq_true] at h
  obtain ⟨⟨⟨⟨⟨⟨⟨-, hissuedAt⟩, hexpiresAt⟩, -⟩, -⟩, -⟩, -⟩, -, hissued, hexpired, -⟩ := h
  exact ⟨⟨hissuedAt, hexpiresAt⟩, hissued, hexpired⟩

theorem getTime_isSome_iff {timestamp : String} (hformat : Calendar.isIsoText timestamp = true) :
    (∃ t, Calendar.getTime timestamp = some t) ↔ FieldsInRange timestamp := by
  unfold Calendar.getTime FieldsInRange
  constructor
  · rintro ⟨t, ht⟩
    rw [Option.ite_none_right_eq_some] at ht
    exact ht.1.2
  · intro hrange
    exact ⟨_, if_pos ⟨hformat, hrange⟩⟩

/-- A verified token is within its window exactly when the fields of its two timestamps are in
range. -/
theorem verified_window_iff {n : Int} (hnow : Calendar.getTime now = some n)
    (h : verifyCapabilityToken P token now resolvedKeys = .ok ()) :
    CapabilityToken.ValidAt token n ↔
      FieldsInRange token.issuedAt ∧ FieldsInRange token.expiresAt := by
  obtain ⟨⟨hissuedAt, hexpiresAt⟩, hissued, hexpired⟩ := times_of_verified h
  rw [← getTime_isSome_iff hissuedAt, ← getTime_isSome_iff hexpiresAt]
  constructor
  · rintro ⟨issued, hi, expires, he, -⟩
    exact ⟨⟨issued, hi⟩, expires, he⟩
  · rintro ⟨⟨issued, hi⟩, expires, he⟩
    refine ⟨issued, hi, expires, he, ?_, ?_⟩
    · by_contra hfuture
      exact hissued ⟨issued, hi, n, hnow, not_le.mp hfuture⟩
    · by_contra hpast
      exact hexpired ⟨expires, he, n, hnow, not_lt.mp hpast⟩

end Verified

/-! ## A token that never expires -/

namespace Relay

theorem root_within_window :
    CapabilityToken.ValidAt root 1780272000000 ↔
      FieldsInRange root.issuedAt ∧ FieldsInRange root.expiresAt :=
  @verified_window_iff (ports ledger [root, writerToken] []).toSignaturePorts root today none _
    (by decide +kernel)
    ((verifyCapabilityToken_eq_ok _).mpr (rootToken_verified _ _ root_isValid List.mem_cons_self))

/-- The token of the editor with an expiry in a thirteenth month. -/
def endless : CapabilityToken :=
  { rootToken "urn:cap:3b241101-e2bb-4255-8caf-4136c566a962"
      "UocwgWFg6tvvWVArs-iWrLw0r1PSgdGtSZTa6nSZKrlgl7cSzxwGn8sDxC1SouufpeWb6yigsek6PzKuKqhdBg" with
    expiresAt := "2026-13-01T00:00:00.000Z" }

theorem endless_isValid : endless.isValid = true := by
  have hid : isCapabilityTokenId "urn:cap:3b241101-e2bb-4255-8caf-4136c566a962" = true :=
    (isCapabilityTokenId_ofList _).trans (by decide)
  have hvalue : isSignature
      "UocwgWFg6tvvWVArs-iWrLw0r1PSgdGtSZTa6nSZKrlgl7cSzxwGn8sDxC1SouufpeWb6yigsek6PzKuKqhdBg" =
        true := (isSignature_ofList _).trans (by decide)
  have hexpires : Calendar.isIsoText "2026-13-01T00:00:00.000Z" = true :=
    (isIsoText_ofList _).trans (by decide)
  -- the other fields are those of a root token
  have hroot := rootToken_isValid hid hvalue
  simp only [CapabilityToken.isValid, Bool.and_eq_true] at hroot ⊢
  obtain ⟨⟨⟨⟨⟨⟨hfields, hissued⟩, -⟩, hcapabilities⟩, hurl⟩, hproof⟩, hchain⟩ := hroot
  exact ⟨⟨⟨⟨⟨⟨hfields, hissued⟩, hexpires⟩, hcapabilities⟩, hurl⟩, hproof⟩, hchain⟩

theorem endless_no_instant : Calendar.getTime endless.expiresAt = none := by
  have hmonth : ¬ Calendar.InRange (Calendar.stamp "2026-13-01T00:00:00.000Z") := by
    decide +kernel
  exact if_neg fun h => hmonth h.2

/-- The token verifies at every instant from its issuance on. -/
theorem endless_verified {now : String} (hissued : ¬ issuedInFuture endless.issuedAt now) :
    verifyCapabilityToken (ports [signedToken owner endless] [] []).toSignaturePorts endless now
      none = .ok () :=
  (verifyCapabilityToken_eq_ok _).mpr {
    schema := endless_isValid
    issuer := owner_isDidKey
    signer := by
      show isDidAgent (didOfVerificationMethod (owner ++ "#key-1")) = false
      rw [didOfVerificationMethod_key (hash_not_mem_of_isDidKey owner_isDidKey)]
      exact isDidAgent_eq_false_of_isDidKey owner_isDidKey
    issued := hissued
    unexpired := by
      rintro ⟨expires, hexpires, -⟩
      rw [endless_no_instant] at hexpires
      cases hexpires
    undelegated := by simp [isDelegated, endless, rootToken]
    scopes := by simp [endless, rootToken, channels, isPhase2Scope]
    signature := by
      refine ⟨_, owner_key, ?_⟩
      rw [← payload_signedToken owner]
      show verifyIn _ _ _ _ = some true
      exact verifyIn_of_mem List.mem_cons_self }

theorem endless_token_verified :
    ¬ ∀ (P : SignaturePorts) (token : CapabilityToken) (now : String)
      (resolvedKeys : Option ResolvedPublicKeys) (n : Int), Calendar.getTime now = some n →
      verifyCapabilityToken P token now resolvedKeys = .ok () →
        CapabilityToken.ValidAt token n := by
  intro h
  have hnow : Calendar.getTime "9999-12-31T00:00:00.000Z" = some 253402214400000 := by
    decide +kernel
  have hissued : ¬ issuedInFuture endless.issuedAt "9999-12-31T00:00:00.000Z" := by
    show ¬ issuedInFuture "2026-01-01T00:00:00.000Z" "9999-12-31T00:00:00.000Z"
    decide +kernel
  obtain ⟨-, -, expires, hexpires, -⟩ := h _ _ _ _ _ hnow (endless_verified hissued)
  rw [endless_no_instant] at hexpires
  cases hexpires

end Relay

end Coivitas.Identity
