import Coivitas.Crypto.Signing

/-! # The loops of the base64url codec

The encoder takes three bytes a round and the decoder four characters, with the places
past the end read as zero. Both loops are shown to work on groups: what is written is read
back, and what is read is written the same when no unused bit is set.
-/

namespace Coivitas.Crypto

open Foundation

namespace Base64Url

/-! ## The loops -/

/-- `i < len ? bytes[i] : 0` -/
def byteAt (bytes : List UInt8) (i : Nat) : Nat := (bytes.getD i 0).toNat

/-- The rounds of the encoder from index `i` on. -/
def encodeFrom (bytes : List UInt8) (i : Nat) (result : List Char) : List Char :=
  if i < bytes.length then
    let b₀ := byteAt bytes i
    let b₁ := byteAt bytes (i + 1)
    let b₂ := byteAt bytes (i + 2)
    let result := result ++ [base64Text.base64Char (b₀ >>> 2)]
    let result := result ++ [base64Text.base64Char ((b₀ &&& 0x03) <<< 4 ||| b₁ >>> 4)]
    let result := if i + 1 < bytes.length then
      result ++ [base64Text.base64Char ((b₁ &&& 0x0f) <<< 2 ||| b₂ >>> 6)] else result
    let result := if i + 2 < bytes.length then
      result ++ [base64Text.base64Char (b₂ &&& 0x3f)] else result
    encodeFrom bytes (i + 3) result
  else result
termination_by bytes.length - i

def toBase64Url (bytes : List UInt8) : String :=
  if bytes = [] then "" else String.ofList (encodeFrom bytes 0 [])

/-- The decode table; 255 stands for no character of the alphabet. -/
def lookup (c : Char) : Nat := if isBase64UrlChar c then base64UrlChars.idxOf c else 255

/-- `i < len ? lookup[text[i]] : 0` -/
def valueAt (text : List Char) (i : Nat) : Nat := (text[i]?.map lookup).getD 0

/-- The rounds of the decoder from index `i` on; the next byte is stored at `outIdx`. A store
behind the end of the result is lost. -/
def decodeFrom (text : List Char) (i outIdx : Nat) (result : List UInt8) : List UInt8 :=
  if i < text.length then
    let c₀ := valueAt text i
    let c₁ := valueAt text (i + 1)
    let c₂ := valueAt text (i + 2)
    let c₃ := valueAt text (i + 3)
    let result := result.set outIdx (UInt8.ofNat (c₀ <<< 2 ||| c₁ >>> 4))
    let outIdx := outIdx + 1
    let (result, outIdx) := if i + 2 < text.length then
      (result.set outIdx (UInt8.ofNat ((c₁ &&& 0x0f) <<< 4 ||| c₂ >>> 2)), outIdx + 1)
      else (result, outIdx)
    let (result, outIdx) := if i + 3 < text.length then
      (result.set outIdx (UInt8.ofNat ((c₂ &&& 0x03) <<< 6 ||| c₃)), outIdx + 1)
      else (result, outIdx)
    decodeFrom text (i + 4) outIdx result
  else result
termination_by text.length - i

/-- `/^[A-Za-z0-9_-]*={0,2}$/` -/
def matchesPattern (text : List Char) : Bool :=
  let stripped := text.rdropWhile (· == '=')
  stripped.all isBase64UrlChar && decide (text.length - stripped.length ≤ 2)

/-- `none` when it throws. -/
def fromBase64Url (text : List Char) : Option (List UInt8) :=
  if text = [] then some []
  else
    let stripped := text.rdropWhile (· == '=')
    if matchesPattern text = false then none
    else if stripped.length % 4 = 1 then none
    else some (decodeFrom stripped 0 0 (List.replicate (stripped.length * 3 / 4) 0))

/-! ## Bits -/

theorem or_shiftLeft {high low width : Nat} (hlow : low < 2 ^ width) :
    high <<< width ||| low = high * 2 ^ width + low := by
  rw [← Nat.shiftLeft_add_eq_or_of_lt hlow, Nat.shiftLeft_eq]

theorem and_mask (n width : Nat) : n &&& 2 ^ width - 1 = n % 2 ^ width :=
  Nat.and_two_pow_sub_one_eq_mod n width

/-- The four indices of three bytes. -/
theorem encode_bits {b₁ b₂ : Nat} (b₀ : Nat) (h₁ : b₁ < 256) (h₂ : b₂ < 256) :
    b₀ >>> 2 = b₀ / 4 ∧ (b₀ &&& 0x03) <<< 4 ||| b₁ >>> 4 = b₀ % 4 * 16 + b₁ / 16 ∧
      (b₁ &&& 0x0f) <<< 2 ||| b₂ >>> 6 = b₁ % 16 * 4 + b₂ / 64 ∧ b₂ &&& 0x3f = b₂ % 64 := by
  have hhigh : b₁ >>> 4 = b₁ / 16 := Nat.shiftRight_eq_div_pow b₁ 4
  have hlow : b₂ >>> 6 = b₂ / 64 := Nat.shiftRight_eq_div_pow b₂ 6
  refine ⟨Nat.shiftRight_eq_div_pow b₀ 2, ?_, ?_, and_mask b₂ 6⟩
  · rw [or_shiftLeft (by omega), hhigh, show b₀ &&& 0x03 = b₀ % 4 from and_mask b₀ 2]
    rfl
  · rw [or_shiftLeft (by omega), hlow, show b₁ &&& 0x0f = b₁ % 16 from and_mask b₁ 4]
    rfl

/-- The three bytes of four indices. -/
theorem decode_bits {c₁ c₂ c₃ : Nat} (c₀ : Nat) (h₁ : c₁ < 64) (h₂ : c₂ < 64) (h₃ : c₃ < 64) :
    c₀ <<< 2 ||| c₁ >>> 4 = c₀ * 4 + c₁ / 16 ∧
      (c₁ &&& 0x0f) <<< 4 ||| c₂ >>> 2 = c₁ % 16 * 16 + c₂ / 4 ∧
      (c₂ &&& 0x03) <<< 6 ||| c₃ = c₂ % 4 * 64 + c₃ := by
  have hhigh : c₁ >>> 4 = c₁ / 16 := Nat.shiftRight_eq_div_pow c₁ 4
  have hmiddle : c₂ >>> 2 = c₂ / 4 := Nat.shiftRight_eq_div_pow c₂ 2
  refine ⟨?_, ?_, ?_⟩
  · rw [or_shiftLeft (by omega), hhigh]
    rfl
  · rw [or_shiftLeft (by omega), hmiddle, show c₁ &&& 0x0f = c₁ % 16 from and_mask c₁ 4]
    rfl
  · rw [or_shiftLeft (by omega), show c₂ &&& 0x03 = c₂ % 4 from and_mask c₂ 2]
    rfl

/-! ## The encoder -/

theorem byteAt_lt (bytes : List UInt8) (i : Nat) : byteAt bytes i < 256 :=
  (bytes.getD i 0).toNat_lt

theorem byteAt_drop (bytes : List UInt8) (i k : Nat) :
    byteAt bytes (i + k) = byteAt (bytes.drop i) k := by
  simp [byteAt, List.getD_eq_getElem?_getD]

/-- The loop appends the groups of the bytes that remain. -/
theorem encodeFrom_eq (bytes : List UInt8) (i : Nat) (result : List Char) :
    encodeFrom bytes i result = result ++ base64Text ((bytes.drop i).map UInt8.toNat) := by
  induction hleft : bytes.length - i using Nat.strong_induction_on generalizing i result with
  | _ left ih =>
      obtain ⟨hfirst, hsecond, hthird, hfourth⟩ := encode_bits (byteAt bytes i)
        (byteAt_lt bytes (i + 1)) (byteAt_lt bytes (i + 2))
      rw [encodeFrom]
      dsimp only
      rw [hfirst, hsecond, hthird, hfourth]
      have hlast : bytes.length ≤ i + 3 → ∀ result, encodeFrom bytes (i + 3) result = result := by
        intro hend result
        rw [encodeFrom, if_neg (by omega)]
      have h0 := byteAt_drop bytes i 0
      have h1 := byteAt_drop bytes i 1
      have h2 := byteAt_drop bytes i 2
      rw [Nat.add_zero] at h0
      have hlength : (bytes.drop i).length = bytes.length - i := List.length_drop
      rcases hrest : bytes.drop i with _ | ⟨b₀, _ | ⟨b₁, _ | ⟨b₂, rest⟩⟩⟩ <;>
        rw [hrest] at h0 h1 h2 hlength <;> simp only [List.length_cons, List.length_nil] at hlength
      · rw [if_neg (by omega)]
        simp [base64Text]
      · rw [if_pos (by omega), if_neg (by omega), if_neg (by omega), hlast (by omega), h0, h1]
        simp [byteAt, base64Text]
      · rw [if_pos (by omega), if_neg (by omega), if_pos (by omega), hlast (by omega), h0, h1, h2]
        simp [byteAt, base64Text]
      · have hnext : bytes.drop (i + 3) = rest := by
          rw [← List.drop_drop, hrest]
          rfl
        rw [if_pos (by omega), if_pos (by omega), if_pos (by omega),
          ih _ (by omega) (i + 3) _ rfl, hnext, h0, h1, h2]
        simp [byteAt, base64Text]

theorem toBase64Url_eq (bytes : List UInt8) : toBase64Url bytes = Crypto.toBase64Url bytes := by
  unfold toBase64Url Crypto.toBase64Url
  split
  · next hempty => subst hempty; rfl
  · rw [encodeFrom_eq, List.nil_append, List.drop_zero]

/-! ## The decoder -/

theorem idxOf_lt_of_isBase64UrlChar {c : Char} (hc : isBase64UrlChar c = true) :
    base64UrlChars.idxOf c < 64 := by
  have hmem : c ∈ base64UrlChars := by simpa [isBase64UrlChar] using hc
  have hlength : base64UrlChars.length = 64 := by rw [base64UrlChars_eq]; rfl
  exact hlength ▸ List.idxOf_lt_length_of_mem hmem

/-- What a read index stays below. -/
theorem valueAt_lt {text : List Char} (hall : text.all isBase64UrlChar = true) (i : Nat) :
    valueAt text i < 64 := by
  unfold valueAt
  cases hchar : text[i]? with
  | none => decide
  | some c =>
      have hc : isBase64UrlChar c = true :=
        List.all_eq_true.mp hall c (List.mem_of_getElem? hchar)
      rw [Option.map_some, Option.getD_some, lookup, if_pos hc]
      exact idxOf_lt_of_isBase64UrlChar hc

theorem valueAt_eq {text : List Char} (hall : text.all isBase64UrlChar = true) (i k : Nat) :
    valueAt text (i + k) = ((text.drop i)[k]?.map base64UrlChars.idxOf).getD 0 := by
  have hread : ∀ c, text[i + k]? = some c → lookup c = base64UrlChars.idxOf c := fun c hchar =>
    if_pos (List.all_eq_true.mp hall c (List.mem_of_getElem? hchar))
  rw [valueAt, List.getElem?_drop]
  cases hchar : text[i + k]? with
  | none => rw [Option.map_none, Option.map_none]
  | some c => rw [Option.map_some, Option.map_some, hread c hchar]

theorem set_behind {α : Type} (done rest : List α) (k : Nat) (value : α) :
    (done ++ rest).set (done.length + k) value = done ++ rest.set k value := by
  rw [List.set_append_right _ _ (by omega), Nat.add_sub_cancel_left]

/-- The bytes of the groups that remain take the places that remain. -/
theorem decodeFrom_eq {text : List Char} (hall : text.all isBase64UrlChar = true) (i : Nat)
    (done rest : List UInt8) (hrest : rest.length = (text.length - i) * 3 / 4)
    (hlength : (text.length - i) % 4 ≠ 1) :
    decodeFrom text i done.length (done ++ rest) =
      done ++ base64Groups ((text.drop i).map base64UrlChars.idxOf) := by
  induction hleft : text.length - i using Nat.strong_induction_on generalizing i done rest with
  | _ left ih =>
      obtain ⟨hfirst, hsecond, hthird⟩ := decode_bits (valueAt text i)
        (valueAt_lt hall (i + 1)) (valueAt_lt hall (i + 2)) (valueAt_lt hall (i + 3))
      rw [decodeFrom]
      dsimp only
      rw [hfirst, hsecond, hthird]
      clear hfirst hsecond hthird
      have hlast : text.length ≤ i + 4 → ∀ outIdx result,
          decodeFrom text (i + 4) outIdx result = result := by
        intro hend outIdx result
        rw [decodeFrom, if_neg (by omega)]
      have h0 := valueAt_eq hall i 0
      have h1 := valueAt_eq hall i 1
      have h2 := valueAt_eq hall i 2
      have h3 := valueAt_eq hall i 3
      rw [Nat.add_zero] at h0
      have hdrop : (text.drop i).length = text.length - i := List.length_drop
      rcases hchars : text.drop i with _ | ⟨c₀, _ | ⟨c₁, _ | ⟨c₂, _ | ⟨c₃, chars⟩⟩⟩⟩ <;>
        rw [hchars] at h0 h1 h2 h3 hdrop <;>
        simp only [List.length_cons, List.length_nil] at hdrop
      · have hempty : rest = [] := List.eq_nil_of_length_eq_zero (by omega)
        rw [if_neg (by omega), hempty, List.map_nil]
        simp [base64Groups]
      · omega
      · obtain ⟨r₀, rfl⟩ := List.length_eq_one_iff.mp (show rest.length = 1 by omega)
        rw [if_pos (by omega), if_neg (by omega), if_neg (by omega), hlast (by omega), h0, h1]
        simp [base64Groups]
      · obtain ⟨r₀, r₁, rfl⟩ := List.length_eq_two.mp (show rest.length = 2 by omega)
        rw [if_pos (by omega), if_neg (by omega), if_pos (by omega), hlast (by omega), h0, h1, h2]
        simp [base64Groups]
      · have hnext : text.drop (i + 4) = chars := by
          rw [← List.drop_drop, hchars]
          rfl
        rcases rest with _ | ⟨r₀, _ | ⟨r₁, _ | ⟨r₂, rest⟩⟩⟩ <;>
          simp only [List.length_cons, List.length_nil] at hrest <;> try omega
        have hstep := ih _ (by omega) (i + 4)
          (done ++ [UInt8.ofNat (valueAt text i * 4 + valueAt text (i + 1) / 16),
            UInt8.ofNat (valueAt text (i + 1) % 16 * 16 + valueAt text (i + 2) / 4),
            UInt8.ofNat (valueAt text (i + 2) % 4 * 64 + valueAt text (i + 3))]) rest
          (by omega) (by omega) rfl
        rw [if_pos (by omega), if_pos (by omega), if_pos (by omega)]
        rw [hnext, h0, h1, h2, h3] at hstep
        rw [h0, h1, h2, h3]
        simpa [base64Groups, Nat.add_assoc, set_behind] using hstep

theorem fromBase64Url_eq (text : List Char) : fromBase64Url text = Crypto.fromBase64Url text := by
  unfold fromBase64Url Crypto.fromBase64Url
  split
  · next hempty => subst hempty; rfl
  generalize hstripped : text.rdropWhile (· == '=') = stripped
  have hpattern : matchesPattern text = true ↔
      stripped.all isBase64UrlChar = true ∧ text.length - stripped.length ≤ 2 := by
    simp [matchesPattern, hstripped]
  dsimp only
  cases hmatch : matchesPattern text with
  | false =>
      rw [if_pos rfl, if_neg fun hparts => ?_]
      exact absurd (hpattern.mpr ⟨hparts.1, hparts.2.1⟩) (by simp [hmatch])
  | true =>
      obtain ⟨hall, hpadding⟩ := hpattern.mp hmatch
      rw [if_neg (by decide)]
      by_cases hlength : stripped.length % 4 = 1
      · rw [if_pos hlength, if_neg fun hparts => hparts.2.2 hlength]
      · have hread := decodeFrom_eq hall 0 [] (List.replicate (stripped.length * 3 / 4) 0)
          (by simp) (by simpa using hlength)
        rw [List.drop_zero] at hread
        rw [if_neg hlength, if_pos ⟨hall, hpadding, hlength⟩]
        exact congrArg some hread

/-- What the decoder accepts, and the bytes it gives. -/
theorem fromBase64Url_eq_some {text : List Char} {bytes : List UInt8}
    (haccept : fromBase64Url text = some bytes) :
    (text.rdropWhile (· == '=')).all isBase64UrlChar = true ∧
      (text.rdropWhile (· == '=')).length % 4 ≠ 1 ∧
      base64Groups ((text.rdropWhile (· == '=')).map base64UrlChars.idxOf) = bytes := by
  rw [fromBase64Url_eq] at haccept
  simp only [Crypto.fromBase64Url, Option.ite_none_right_eq_some, Option.some.injEq] at haccept
  exact ⟨haccept.1.1, haccept.1.2.2, haccept.2⟩

/-! ## Both directions -/

theorem base64Char_idxOf {c : Char} (hc : isBase64UrlChar c = true) :
    base64Text.base64Char (base64UrlChars.idxOf c) = c := by
  have hmem : c ∈ base64UrlChars := by simpa [isBase64UrlChar] using hc
  simp [base64Text.base64Char, List.getD_eq_getElem?_getD, List.idxOf_lt_length_of_mem hmem]

/-- The low bits of the last index that stand for no byte are zero. -/
def lowBitsZero (values : List Nat) : Prop :=
  ∀ value ∈ values.getLast?, (values.length % 4 = 2 → value % 16 = 0) ∧
    (values.length % 4 = 3 → value % 4 = 0)

theorem lowBitsZero_of_group {c₀ c₁ c₂ c₃ : Nat} {rest : List Nat}
    (hzero : lowBitsZero (c₀ :: c₁ :: c₂ :: c₃ :: rest)) : lowBitsZero rest := by
  intro value hvalue
  have hlast : value ∈ (c₀ :: c₁ :: c₂ :: c₃ :: rest).getLast? := by
    cases rest with
    | nil => simp at hvalue
    | cons c rest => simpa [List.getLast?_cons_cons] using hvalue
  have hlength : (c₀ :: c₁ :: c₂ :: c₃ :: rest).length % 4 = rest.length % 4 := by
    simp only [List.length_cons]
    omega
  simpa only [hlength] using hzero value hlast

/-- What is read in groups is written the same. -/
theorem base64Text_base64Groups {values : List Nat} (hvalues : ∀ value ∈ values, value < 64)
    (hlength : values.length % 4 ≠ 1) (hzero : lowBitsZero values) :
    base64Text ((base64Groups values).map UInt8.toNat) = values.map base64Text.base64Char := by
  have hbyte : ∀ n < 256, (UInt8.ofNat n).toNat = n := fun n hn => by simp; omega
  fun_induction base64Groups values with
  | case1 c₀ c₁ c₂ c₃ rest ih =>
      simp only [List.forall_mem_cons] at hvalues
      obtain ⟨h₀, h₁, h₂, h₃, hrest⟩ := hvalues
      simp only [List.length_cons] at hlength
      have hread := ih hrest (by omega) (lowBitsZero_of_group hzero)
      have hfirst : (c₀ * 4 + c₁ / 16) / 4 = c₀ := by omega
      have hsecond : (c₀ * 4 + c₁ / 16) % 4 * 16 + (c₁ % 16 * 16 + c₂ / 4) / 16 = c₁ := by omega
      have hthird : (c₁ % 16 * 16 + c₂ / 4) % 16 * 4 + (c₂ % 4 * 64 + c₃) / 64 = c₂ := by omega
      have hfourth : (c₂ % 4 * 64 + c₃) % 64 = c₃ := by omega
      rw [List.map_cons, List.map_cons, List.map_cons, hbyte _ (by omega), hbyte _ (by omega),
        hbyte _ (by omega), base64Text, hfirst, hsecond, hthird, hfourth, hread]
      rfl
  | case2 c₀ c₁ c₂ =>
      simp only [List.forall_mem_cons] at hvalues
      obtain ⟨h₀, h₁, h₂, -⟩ := hvalues
      have hlow : c₂ % 4 = 0 := (hzero c₂ (by simp)).2 (by simp)
      have hfirst : (c₀ * 4 + c₁ / 16) / 4 = c₀ := by omega
      have hsecond : (c₀ * 4 + c₁ / 16) % 4 * 16 + (c₁ % 16 * 16 + c₂ / 4) / 16 = c₁ := by omega
      have hthird : (c₁ % 16 * 16 + c₂ / 4) % 16 * 4 = c₂ := by omega
      rw [List.map_cons, List.map_cons, List.map_nil, hbyte _ (by omega), hbyte _ (by omega),
        base64Text, hfirst, hsecond, hthird]
      rfl
  | case3 c₀ c₁ =>
      simp only [List.forall_mem_cons] at hvalues
      obtain ⟨h₀, h₁, -⟩ := hvalues
      have hlow : c₁ % 16 = 0 := (hzero c₁ (by simp)).1 (by simp)
      have hfirst : (c₀ * 4 + c₁ / 16) / 4 = c₀ := by omega
      have hsecond : (c₀ * 4 + c₁ / 16) % 4 * 16 = c₁ := by omega
      rw [List.map_cons, List.map_nil, hbyte _ (by omega), base64Text, hfirst, hsecond]
      rfl
  | case4 values hfour hthree htwo =>
      rcases values with _ | ⟨c, _ | ⟨d, rest⟩⟩
      · rfl
      · simp at hlength
      · rcases rest with _ | ⟨e, _ | ⟨f, rest⟩⟩
        · exact absurd rfl (htwo c d)
        · exact absurd rfl (hthree c d e)
        · exact absurd rfl (hfour c d e f rest)

/-- The low bits of the last character that stand for no byte are zero. -/
def unusedBitsZero (stripped : List Char) : Prop := lowBitsZero (stripped.map lookup)

theorem map_lookup {text : List Char} (hall : text.all isBase64UrlChar = true) :
    text.map lookup = text.map base64UrlChars.idxOf :=
  List.map_congr_left fun c hc => if_pos (List.all_eq_true.mp hall c hc)

theorem idxOf_lt {text : List Char} (hall : text.all isBase64UrlChar = true) :
    ∀ value ∈ text.map base64UrlChars.idxOf, value < 64 := by
  intro value hvalue
  obtain ⟨c, hc, rfl⟩ := List.mem_map.mp hvalue
  exact idxOf_lt_of_isBase64UrlChar (List.all_eq_true.mp hall c hc)

/-- Bytes are written without padding and read back, and an accepted text whose unused bits are
zero is written again as it stands without its padding. -/
theorem base64Url_round_trip :
    (∀ bytes : List UInt8,
      fromBase64Url (toBase64Url bytes).toList = some bytes ∧
        '=' ∉ (toBase64Url bytes).toList ∧
        (toBase64Url bytes).toList.length = (4 * bytes.length + 2) / 3) ∧
    ∀ (text : List Char) (bytes : List UInt8), fromBase64Url text = some bytes →
      unusedBitsZero (text.rdropWhile (· == '=')) →
      (toBase64Url bytes).toList = text.rdropWhile (· == '=') := by
  constructor
  · intro bytes
    have hchars : (toBase64Url bytes).toList = base64Text (bytes.map UInt8.toNat) := by
      rw [toBase64Url_eq, Crypto.toBase64Url, String.toList_ofList]
    have hall := all_base64Text (bytes.map UInt8.toNat)
    have hlength := length_base64Text (bytes.map UInt8.toNat)
    rw [List.length_map] at hlength
    refine ⟨?_, ?_, hchars ▸ hlength⟩
    · rw [toBase64Url_eq, fromBase64Url_eq, fromBase64Url_toBase64Url]
    · intro hpad
      rw [hchars] at hpad
      have hmem := List.all_eq_true.mp hall _ hpad
      rw [isBase64UrlChar, base64UrlChars_eq] at hmem
      exact absurd hmem (by decide)
  · intro text bytes haccept hzero
    obtain ⟨hall, hlength, rfl⟩ := fromBase64Url_eq_some haccept
    rw [unusedBitsZero, map_lookup hall] at hzero
    rw [toBase64Url_eq, Crypto.toBase64Url, String.toList_ofList,
      base64Text_base64Groups (idxOf_lt hall) (by simpa using hlength) hzero, List.map_map]
    exact (List.map_congr_left fun c hc =>
      base64Char_idxOf (List.all_eq_true.mp hall c hc)).trans (List.map_id _)

end Base64Url

end Coivitas.Crypto
