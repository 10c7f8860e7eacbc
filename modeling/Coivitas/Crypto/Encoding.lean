import Coivitas.Foundation.Bytes
import Mathlib.Data.List.DropRight

/-! # Encodings of keys, signatures and hashes

Texts are hex or unpadded base64url; the reader tells them apart by their
characters.
-/

namespace Coivitas.Crypto

open Foundation

inductive Encoding where
  | hex
  | base64url
  deriving DecidableEq

/-- `[0-9a-f]` in either case. -/
def isHexChar (c : Char) : Bool :=
  c.isDigit || (97 ≤ c.toNat && c.toNat ≤ 102) || (65 ≤ c.toNat && c.toNat ≤ 70)

/-- An even number of hex digits reads as hex, anything else as base64url. -/
def detectEncoding (text : List Char) : Encoding :=
  if text.length % 2 = 0 ∧ text.all isHexChar = true then .hex else .base64url

def hexValue (c : Char) : Nat :=
  if c.isDigit then c.toNat - 48 else if 97 ≤ c.toNat then c.toNat - 87 else c.toNat - 55

def hexPairs : List Char → List UInt8
  | high :: low :: rest => UInt8.ofNat (hexValue high * 16 + hexValue low) :: hexPairs rest
  | _ => []

/-- The bytes of a hex text; `none` when it throws. -/
def fromHex (text : List Char) : Option (List UInt8) :=
  if text.length % 2 = 0 ∧ text.all isHexChar = true then some (hexPairs text) else none

def base64UrlChars : List Char :=
  "ABCDEFGHIJKLMNOPQRSTUVWXYZabcdefghijklmnopqrstuvwxyz0123456789-_".toList

theorem base64UrlChars_eq : base64UrlChars =
    ['A', 'B', 'C', 'D', 'E', 'F', 'G', 'H', 'I', 'J', 'K', 'L', 'M', 'N', 'O', 'P', 'Q', 'R', 'S',
      'T', 'U', 'V', 'W', 'X', 'Y', 'Z', 'a', 'b', 'c', 'd', 'e', 'f', 'g', 'h', 'i', 'j', 'k', 'l',
      'm', 'n', 'o', 'p', 'q', 'r', 's', 't', 'u', 'v', 'w', 'x', 'y', 'z', '0', '1', '2', '3', '4',
      '5', '6', '7', '8', '9', '-', '_'] := String.toList_ofList

/-- Three bytes for every four characters, fewer for the last group. -/
def base64Groups : List Nat → List UInt8
  | c₀ :: c₁ :: c₂ :: c₃ :: rest =>
      UInt8.ofNat (c₀ * 4 + c₁ / 16) :: UInt8.ofNat (c₁ % 16 * 16 + c₂ / 4) ::
        UInt8.ofNat (c₂ % 4 * 64 + c₃) :: base64Groups rest
  | [c₀, c₁, c₂] => [UInt8.ofNat (c₀ * 4 + c₁ / 16), UInt8.ofNat (c₁ % 16 * 16 + c₂ / 4)]
  | [c₀, c₁] => [UInt8.ofNat (c₀ * 4 + c₁ / 16)]
  | _ => []

/-- The bytes of a base64url text with at most two padding characters; `none`
when it throws. -/
def fromBase64Url (text : List Char) : Option (List UInt8) :=
  let stripped := text.rdropWhile (· == '=')
  if stripped.all base64UrlChars.contains = true ∧ text.length - stripped.length ≤ 2 ∧
      stripped.length % 4 ≠ 1 then
    some (base64Groups (stripped.map base64UrlChars.idxOf))
  else none

/-- The bytes of a key or signature text. -/
def normalizeKey (text : String) : Option (List UInt8) :=
  match detectEncoding text.toList with
  | .hex => fromHex text.toList
  | .base64url => fromBase64Url text.toList

theorem normalizeKey_ofList (text : List Char) :
    normalizeKey (String.ofList text) = match detectEncoding text with
      | .hex => fromHex text
      | .base64url => fromBase64Url text := by
  unfold normalizeKey
  rw [String.toList_ofList]

theorem length_hexPairs_le (text : List Char) : (hexPairs text).length ≤ text.length := by
  fun_induction hexPairs text with
  | case1 high low rest ih =>
      simp only [List.length_cons]
      omega
  | case2 => simp

theorem length_base64Groups_le (values : List Nat) :
    (base64Groups values).length ≤ values.length := by
  fun_induction base64Groups values with
  | case1 c₀ c₁ c₂ c₃ rest ih =>
      simp only [List.length_cons]
      omega
  | case2 => simp
  | case3 => simp
  | case4 => simp

/-- A text spells at most one byte for each character. -/
theorem length_normalizeKey_le {text : String} {bytes : List UInt8}
    (h : normalizeKey text = some bytes) : bytes.length ≤ text.toList.length := by
  unfold normalizeKey at h
  split at h
  next =>
    unfold fromHex at h
    split at h
    next =>
      obtain rfl := Option.some.inj h
      exact length_hexPairs_le _
    next => cases h
  next =>
    simp only [fromBase64Url, Option.ite_none_right_eq_some, Option.some.injEq] at h
    obtain ⟨-, rfl⟩ := h
    refine (length_base64Groups_le _).trans ?_
    rw [List.length_map]
    exact (List.rdropWhile_prefix _ _).length_le

/-! ## Writing -/

/-- Four characters for every three bytes, fewer for the last group. -/
def base64Text : List Nat → List Char
  | b₀ :: b₁ :: b₂ :: rest =>
      base64Char (b₀ / 4) :: base64Char (b₀ % 4 * 16 + b₁ / 16) ::
        base64Char (b₁ % 16 * 4 + b₂ / 64) :: base64Char (b₂ % 64) :: base64Text rest
  | [b₀, b₁] =>
      [base64Char (b₀ / 4), base64Char (b₀ % 4 * 16 + b₁ / 16), base64Char (b₁ % 16 * 4)]
  | [b₀] => [base64Char (b₀ / 4), base64Char (b₀ % 4 * 16)]
  | [] => []
where
  base64Char (n : Nat) : Char := base64UrlChars.getD n 'A'

def toBase64Url (bytes : List UInt8) : String := String.ofList (base64Text (bytes.map UInt8.toNat))

def encode : Encoding → List UInt8 → String
  | .hex, bytes => toHex bytes
  | .base64url, bytes => toBase64Url bytes

theorem length_base64Text (l : List Nat) : (base64Text l).length = (4 * l.length + 2) / 3 := by
  fun_induction base64Text l with
  | case1 b₀ b₁ b₂ rest ih =>
      simp only [List.length_cons, ih]
      omega
  | case2 => simp
  | case3 => simp
  | case4 => simp

/-- `[A-Za-z0-9_-]`. -/
def isBase64UrlChar (c : Char) : Bool := base64UrlChars.contains c

theorem base64Char_mem (n : Nat) : isBase64UrlChar (base64Text.base64Char n) = true := by
  unfold base64Text.base64Char isBase64UrlChar
  rw [List.contains_iff_mem, List.getD_eq_getElem?_getD]
  cases h : base64UrlChars[n]? with
  | none =>
      rw [base64UrlChars_eq]
      decide
  | some c => exact List.mem_of_getElem? h

theorem all_base64Text (l : List Nat) : (base64Text l).all isBase64UrlChar = true := by
  fun_induction base64Text l with
  | case1 b₀ b₁ b₂ rest ih => simp [base64Char_mem, ih]
  | case2 => simp [base64Char_mem]
  | case3 => simp [base64Char_mem]
  | case4 => rfl

theorem hexChar_spec : ∀ n < 16, isHexChar (hexChar n) = true ∧
    isBase64UrlChar (hexChar n) = true := by
  simp only [isBase64UrlChar, base64UrlChars_eq]
  decide

theorem hexByte_spec (b : UInt8) : ∀ c ∈ hexByte b, isHexChar c = true ∧ isBase64UrlChar c = true := by
  have hb := b.toNat_lt
  intro c hc
  simp only [hexByte, List.mem_cons, List.not_mem_nil, or_false] at hc
  rcases hc with rfl | rfl
  · exact hexChar_spec _ (by omega)
  · exact hexChar_spec _ (by omega)

theorem length_flatMap_hexByte (bytes : List UInt8) :
    (bytes.flatMap hexByte).length = 2 * bytes.length := by
  induction bytes with
  | nil => rfl
  | cons b bytes ih =>
      simp only [List.flatMap_cons, List.length_append, ih, List.length_cons, hexByte,
        List.length_nil]
      omega

/-- A digest is read in the encoding it was written in. -/
theorem detectEncoding_encode (encoding : Encoding) {bytes : List UInt8}
    (hlength : bytes.length = 32) :
    detectEncoding (encode encoding bytes).toList = encoding := by
  cases encoding with
  | hex =>
      simp only [encode, toHex, String.toList_ofList, detectEncoding]
      rw [if_pos]
      refine ⟨by rw [length_flatMap_hexByte]; omega, List.all_eq_true.mpr fun c hc => ?_⟩
      obtain ⟨b, -, hcb⟩ := List.mem_flatMap.mp hc
      exact (hexByte_spec b c hcb).1
  | base64url =>
      simp only [encode, toBase64Url, String.toList_ofList, detectEncoding]
      rw [if_neg]
      rintro ⟨heven, -⟩
      rw [length_base64Text, List.length_map, hlength] at heven
      exact absurd heven (by decide)

theorem all_encode (encoding : Encoding) (bytes : List UInt8) :
    (encode encoding bytes).toList.all isBase64UrlChar = true := by
  cases encoding with
  | hex =>
      simp only [encode, toHex, String.toList_ofList]
      refine List.all_eq_true.mpr fun c hc => ?_
      obtain ⟨b, -, hcb⟩ := List.mem_flatMap.mp hc
      exact (hexByte_spec b c hcb).2
  | base64url => simpa only [encode, toBase64Url, String.toList_ofList] using all_base64Text _

/-- The text of a digest has 64 or 43 characters. -/
theorem length_encode (encoding : Encoding) {bytes : List UInt8} (hlength : bytes.length = 32) :
    (encode encoding bytes).toList.length = if encoding = .hex then 64 else 43 := by
  cases encoding with
  | hex =>
      simp only [encode, toHex, String.toList_ofList, length_flatMap_hexByte, hlength]
      rfl
  | base64url => simp [encode, toBase64Url, length_base64Text, hlength]

end Coivitas.Crypto
