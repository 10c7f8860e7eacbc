import Coivitas.Crypto.ChainAcceptance

/-! # The two parts of a preimage

A preimage is two texts one behind the other with nothing between them. The second is the text
of an object, whose brace goes on no canonical text, so a preimage has one division.
-/

namespace Coivitas.Crypto

open Foundation

theorem utf8_append (s t : String) : utf8 (s ++ t) = utf8 s ++ utf8 t := by
  rw [utf8_eq_flatMap, utf8_eq_flatMap, utf8_eq_flatMap, String.toList_append, List.flatMap_append]

variable {P : HccPorts}

/-- The text of an identity begins with a brace. -/
theorem delimited_jcs (identity : ChainIdentity) : Json.Delimited (identity.jcs P).toList := by
  obtain ⟨c, text, hprint, hlead⟩ := Json.print_leads P.numberFormat
    (Json.sortKeys (chainIdentityObject identity))
  rw [chainIdentityObject, Json.sortKeys] at hlead
  have hc : c = '{' := hlead
  rw [ChainIdentity.jcs, Json.canonicalize, Json.stringify, String.toList_ofList, hprint, hc]
  exact Json.delimited_cons _ rfl

/-- A canonical text is the print of a value. -/
theorem CanonicalText.print {text : String} (htext : CanonicalText P text) :
    ∃ value, text.toList = Json.print P.numberFormat value := by
  obtain ⟨value, -, hvalue⟩ := htext
  refine ⟨Json.sortKeys value, ?_⟩
  rw [← hvalue, Json.canonicalize, Json.stringify, String.toList_ofList]

/-- A preimage of a canonical payload is divided in one place. -/
theorem concatPreimage_inj {payload payload' : String} {identity identity' : ChainIdentity}
    (hpayload : CanonicalText P payload) (hpayload' : CanonicalText P payload')
    (hpreimage : concatPreimage payload (identity.jcs P) =
      concatPreimage payload' (identity'.jcs P)) :
    payload = payload' ∧ identity.jcs P = identity'.jcs P := by
  obtain ⟨value, hvalue⟩ := hpayload.print
  obtain ⟨value', hvalue'⟩ := hpayload'.print
  rw [concatPreimage, concatPreimage, ← utf8_append, ← utf8_append] at hpreimage
  have htexts := congrArg String.toList (utf8_injective hpreimage)
  rw [String.toList_append, String.toList_append, hvalue, hvalue'] at htexts
  obtain ⟨rfl, hjcs⟩ := Json.print_append_inj P.numberFormat value value' _ _
    (delimited_jcs identity) (delimited_jcs identity') htexts
  exact ⟨String.toList_inj.mp (hvalue.trans hvalue'.symm), String.toList_inj.mp hjcs⟩

/-- Canonical payloads and chain identities with one preimage are the same. -/
theorem concatPreimage_unambiguous {left right : HashChainEntry} {i j : Nat}
    {leftIdentity rightIdentity : ChainIdentity} {leftJcs rightJcs : String}
    (hleft : assertCanonicalPayloadIsCanonical P left i = .ok ())
    (hright : assertCanonicalPayloadIsCanonical P right j = .ok ())
    (hleftJcs : canonicalizeChainIdentity P leftIdentity = .ok leftJcs)
    (hrightJcs : canonicalizeChainIdentity P rightIdentity = .ok rightJcs)
    (hpreimage : concatPreimage left.canonicalPayload leftJcs =
      concatPreimage right.canonicalPayload rightJcs) :
    left.canonicalPayload = right.canonicalPayload ∧ leftJcs = rightJcs ∧
      leftIdentity = rightIdentity := by
  rw [assertCanonicalPayloadIsCanonical_eq_ok] at hleft hright
  have hleftText : leftJcs = leftIdentity.jcs P := canonicalizeChainIdentity_eq P hleftJcs
  have hrightText : rightJcs = rightIdentity.jcs P := canonicalizeChainIdentity_eq P hrightJcs
  subst hleftText hrightText
  obtain ⟨hpayload, hjcs⟩ := concatPreimage_inj hleft hright hpreimage
  exact ⟨hpayload, hjcs, jcs_injective hjcs⟩

/-- Two entries that are stored under one hash hold the same payload and identity, or their
preimages collide. -/
theorem same_hash_same_parts {left right : HashChainEntry} {i j : Nat} {hash : String}
    (hleft : assertCanonicalPayloadHashConsistent P left i = .ok ())
    (hright : assertCanonicalPayloadHashConsistent P right j = .ok ())
    (hleftHash : left.canonicalPayloadHash = hash) (hrightHash : right.canonicalPayloadHash = hash) :
    (left.canonicalPayload = right.canonicalPayload ∧ left.chainIdentity = right.chainIdentity) ∨
      ExhibitsCollision P [left, right] := by
  have hstored := assertCanonicalPayloadHashConsistent_eq P hleft
  have hstored' := assertCanonicalPayloadHashConsistent_eq P hright
  rw [hleftHash] at hstored
  rw [hrightHash] at hstored'
  have hdigest := toHex_injective (hstored.symm.trans hstored')
  by_cases hpreimage : entryPreimage P left = entryPreimage P right
  · obtain ⟨hcanonical, -⟩ := (assertCanonicalPayloadHashConsistent_eq_ok).mp hleft
    obtain ⟨hcanonical', -⟩ := (assertCanonicalPayloadHashConsistent_eq_ok).mp hright
    obtain ⟨hpayload, hjcs⟩ := concatPreimage_inj hcanonical hcanonical' hpreimage
    exact Or.inl ⟨hpayload, jcs_injective hjcs⟩
  · exact Or.inr ⟨left, by simp, right, by simp, hpreimage, hdigest⟩

namespace Relink

theorem ten_divided :
    let ten := entry "10" digestTen genesisPreviousHash 0
    ten.canonicalPayload = payload "10" ∧ policyIdentity.jcs ports = policyIdentity.jcs ports ∧
      policyIdentity = policyIdentity := by
  have hcanonical : assertCanonicalPayloadIsCanonical ports
      (entry "10" digestTen genesisPreviousHash 0) 0 = .ok () := by decide +kernel
  have hjcs : canonicalizeChainIdentity ports policyIdentity = .ok (policyIdentity.jcs ports) :=
    canonicalizeChainIdentity_valid policyIdentity_valid
  exact concatPreimage_unambiguous hcanonical hcanonical hjcs hjcs rfl

end Relink

end Coivitas.Crypto
