import Mathlib.Data.List.Basic
import Mathlib.Data.UInt
import Mathlib.Tactic.IntervalCases

/-! # Byte strings: UTF-8 and lower-case hex -/

namespace Foundation

/-- The UTF-8 bytes of a text. -/
def utf8 (s : String) : List UInt8 := s.toByteArray.data.toList

theorem utf8_injective : Function.Injective utf8 := by
  intro s t h
  apply String.toByteArray_inj.mp
  apply ByteArray.ext
  exact Array.toList_inj.mp h

theorem utf8_eq_flatMap (s : String) : utf8 s = s.toList.flatMap String.utf8EncodeChar := by
  rw [utf8, ← String.utf8Encode_toList, List.utf8Encode]
  simp

/-- Every character takes at least one byte. -/
theorem length_le_length_utf8 (s : String) : s.toList.length ≤ (utf8 s).length := by
  rw [utf8_eq_flatMap]
  induction s.toList with
  | nil => simp
  | cons c rest ih =>
      have hsize := c.utf8Size_pos
      rw [List.flatMap_cons, List.length_append, String.length_utf8EncodeChar, List.length_cons]
      omega

/-- One lower-case hex digit. -/
def hexChar (n : Nat) : Char := if n < 10 then Char.ofNat (48 + n) else Char.ofNat (87 + n)

def hexByte (b : UInt8) : List Char := [hexChar (b.toNat / 16), hexChar (b.toNat % 16)]

/-- The lower-case hex text of a byte string. -/
def toHex (bytes : List UInt8) : String := String.ofList (bytes.flatMap hexByte)

theorem hexChar_inj : ∀ m < 16, ∀ n < 16, hexChar m = hexChar n → m = n := by decide

theorem hexByte_inj {a b : UInt8} (h : hexByte a = hexByte b) : a = b := by
  simp only [hexByte, List.cons.injEq, and_true] at h
  have ha := a.toNat_lt
  have hb := b.toNat_lt
  have hhigh := hexChar_inj _ (by omega) _ (by omega) h.1
  have hlow := hexChar_inj _ (by omega) _ (by omega) h.2
  exact UInt8.toNat_inj.mp (by omega)

theorem flatMap_hexByte_inj (left right : List UInt8)
    (h : left.flatMap hexByte = right.flatMap hexByte) : left = right := by
  induction left generalizing right with
  | nil => cases right <;> simp_all [hexByte]
  | cons a left ih =>
      cases right with
      | nil => simp [hexByte] at h
      | cons b right =>
          rw [List.flatMap_cons, List.flatMap_cons] at h
          obtain ⟨hbyte, htail⟩ := List.append_inj h rfl
          rw [hexByte_inj hbyte, ih right htail]

theorem toHex_injective : Function.Injective toHex := fun _ _ h =>
  flatMap_hexByte_inj _ _ (String.ofList_injective h)

end Foundation
