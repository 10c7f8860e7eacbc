import Coivitas.Crypto.Signing
import Coivitas.Foundation.Radix
import Coivitas.Identity.Did
import Mathlib.Data.Nat.Digits.Lemmas

/-! # Base 58 and did:key texts

The model of the writing half of `packages/identity/src/did-key.ts`. Reading a text and
writing it are changes of base; the leading zeros of the bytes are kept as leading ones of
the text. Bytes that are all zero get one character too many, which a payload that starts
with `0xed` is not.
-/

namespace Coivitas.Identity

open Foundation

/-! ## Writing -/

/-- A byte of a number below 58 in every digit carries at most two digits. -/
def pushByte (digits : List Nat) (byte : UInt8) : List Nat :=
  Radix.push 256 58 2 digits byte.toNat

def base58Char (digit : Nat) : Char := base58Alphabet.getD digit '1'

def encodeBase58 (bytes : List UInt8) : List Char :=
  if bytes.isEmpty then []
  else
    let digits := bytes.foldl pushByte [0]
    let zeros := bytes.takeWhile (· == 0)
    zeros.map (fun _ => '1') ++ digits.reverse.map base58Char

def publicKeyToDidKey (publicKeyBytes : List UInt8) : String :=
  String.ofList (didKeyPrefix ++ 'z' :: encodeBase58 (0xed :: 0x01 :: publicKeyBytes))

def didKeyFromPublicKey (publicKeyBytes : List UInt8) : String := publicKeyToDidKey publicKeyBytes

/-! ## Changes of base -/

theorem timesBase_eq (bytes : List Nat) (carry : Nat) :
    timesBase bytes carry = Radix.scale 58 256 bytes carry := by
  induction bytes generalizing carry with
  | nil => rfl
  | cons byte bytes ih => rw [timesBase, Radix.scale, ih]

theorem carryBytes_eq (fuel carry : Nat) :
    carryBytes fuel carry = Radix.carryDigits 256 fuel carry := by
  induction fuel generalizing carry with
  | zero => rfl
  | succ fuel ih => rw [carryBytes, Radix.carryDigits, ih]

theorem pushDigit_eq : pushDigit = Radix.push 58 256 4 := by
  funext bytes digit
  simp only [pushDigit, Radix.push, timesBase_eq, carryBytes_eq]

/-- The number of a text of digits. -/
def base58Value (digits : List Nat) : Nat := Nat.ofDigits 58 digits.reverse

def bytesValue (bytes : List UInt8) : Nat := Nat.ofDigits 256 (bytes.map UInt8.toNat).reverse

theorem foldl_pushByte (bytes : List UInt8) :
    bytes.foldl pushByte [0] = Radix.numeral 58 (bytesValue bytes) := by
  have hbytes : ∀ byte ∈ bytes.map UInt8.toNat, byte < 256 := by
    intro byte hbyte
    obtain ⟨b, -, rfl⟩ := List.mem_map.mp hbyte
    exact b.toNat_lt
  rw [bytesValue, ← @Radix.foldl_push 256 58 (by decide) 2 (by decide) _ hbytes, List.foldl_map]
  rfl

/-! ## Characters and digits -/

theorem base58Alphabet_eq : base58Alphabet =
    ['1', '2', '3', '4', '5', '6', '7', '8', '9', 'A', 'B', 'C', 'D', 'E', 'F', 'G', 'H', 'J', 'K',
      'L', 'M', 'N', 'P', 'Q', 'R', 'S', 'T', 'U', 'V', 'W', 'X', 'Y', 'Z', 'a', 'b', 'c', 'd', 'e',
      'f', 'g', 'h', 'i', 'j', 'k', 'm', 'n', 'o', 'p', 'q', 'r', 's', 't', 'u', 'v', 'w', 'x', 'y',
      'z'] := String.toList_ofList

theorem base58Alphabet_nodup : base58Alphabet.Nodup := by
  rw [base58Alphabet_eq]
  decide

theorem length_base58Alphabet : base58Alphabet.length = 58 := by
  rw [base58Alphabet_eq]
  rfl

theorem base58Char_eq {digit : Nat} (hdigit : digit < 58) :
    base58Alphabet[digit]? = some (base58Char digit) := by
  rw [base58Char, List.getD_eq_getElem?_getD, List.getElem?_eq_getElem
    (by rwa [length_base58Alphabet])]
  rfl

theorem contains_base58Char {digit : Nat} (hdigit : digit < 58) :
    base58Alphabet.contains (base58Char digit) = true :=
  List.contains_iff_mem.mpr (List.mem_of_getElem? (base58Char_eq hdigit))

/-- The character of a digit is read as that digit. -/
theorem findIdx?_base58Char {digit : Nat} (hdigit : digit < 58) :
    base58Alphabet.findIdx? (· == base58Char digit) = some digit := by
  have hget := List.getElem_of_getElem? (base58Char_eq hdigit)
  obtain ⟨hlength, hget⟩ := hget
  rw [List.findIdx?_eq_some_iff_getElem]
  refine ⟨hlength, by simp [hget], fun other hother => ?_⟩
  have hne : base58Alphabet[other] ≠ base58Char digit := by
    rw [← hget]
    intro hsame
    exact absurd ((List.Nodup.getElem_inj_iff base58Alphabet_nodup).mp hsame) (by omega)
  simpa using hne

/-- A character that is read is the one of its digit. -/
theorem eq_base58Char {c : Char} {digit : Nat}
    (hread : base58Alphabet.findIdx? (· == c) = some digit) :
    digit < 58 ∧ c = base58Char digit := by
  obtain ⟨hlength, hget, -⟩ := List.findIdx?_eq_some_iff_getElem.mp hread
  rw [length_base58Alphabet] at hlength
  have hchar := List.getElem_of_getElem? (base58Char_eq hlength)
  obtain ⟨_, hchar⟩ := hchar
  refine ⟨hlength, ?_⟩
  rw [← hchar]
  exact (beq_iff_eq.mp hget).symm

theorem base58Char_eq_one_iff {digit : Nat} (hdigit : digit < 58) :
    base58Char digit = '1' ↔ digit = 0 := by
  have hzero : base58Char 0 = '1' := by
    rw [base58Char, base58Alphabet_eq]
    rfl
  constructor
  · intro hone
    have hread := findIdx?_base58Char hdigit
    rw [hone, ← hzero, findIdx?_base58Char (by decide)] at hread
    exact (Option.some.inj hread).symm
  · rintro rfl
    exact hzero

/-! ## Reading -/

theorem foldlM_pushDigit {digits : List Nat} (hdigits : ∀ digit ∈ digits, digit < 58)
    (bytes : List Nat) :
    (digits.map base58Char).foldlM (fun bytes char => do
      let digit ← base58Alphabet.findIdx? (· == char)
      return pushDigit bytes digit) bytes = some (digits.foldl pushDigit bytes) := by
  induction digits generalizing bytes with
  | nil => rfl
  | cons digit digits ih =>
      have hread := findIdx?_base58Char (hdigits digit List.mem_cons_self)
      rw [List.map_cons, List.foldlM_cons, hread, List.foldl_cons]
      exact ih (fun other hother => hdigits other (List.mem_cons_of_mem _ hother)) _

theorem takeWhile_one {digits : List Nat} (hdigits : ∀ digit ∈ digits, digit < 58) :
    ((digits.map base58Char).takeWhile (· == '1')).length =
      (digits.takeWhile (· == 0)).length := by
  induction digits with
  | nil => rfl
  | cons digit digits ih =>
      have hone := base58Char_eq_one_iff (hdigits digit List.mem_cons_self)
      have hrest := ih fun other hother => hdigits other (List.mem_cons_of_mem _ hother)
      rw [List.map_cons, List.takeWhile_cons, List.takeWhile_cons]
      by_cases hzero : digit = 0
      · rw [if_pos (beq_iff_eq.mpr (hone.mpr hzero)), if_pos (beq_iff_eq.mpr hzero),
          List.length_cons, List.length_cons, hrest]
      · rw [if_neg (by simpa using mt hone.mp hzero), if_neg (by simpa using hzero)]
        rfl

/-- A text of digits is read as the bytes of its number, behind a zero for each leading one. -/
theorem decodeBase58_map {digits : List Nat} (hdigits : ∀ digit ∈ digits, digit < 58)
    (hne : digits ≠ []) :
    decodeBase58 (digits.map base58Char) =
      some (List.replicate (digits.takeWhile (· == 0)).length 0 ++
        (Radix.numeral 256 (base58Value digits)).reverse) := by
  have hempty : ¬ (digits.map base58Char).isEmpty = true := by simpa using hne
  rw [decodeBase58, if_neg hempty, foldlM_pushDigit hdigits, pushDigit_eq,
    Radix.foldl_push (by decide) (by decide) hdigits]
  simp only [Option.bind_eq_bind, Option.bind_some, Option.pure_def, List.map_const',
    takeWhile_one hdigits, List.reverse_append, List.reverse_replicate, base58Value]

/-- Every text that is read is one of digits. -/
theorem exists_digits {value : List Char}
    (hall : ∀ c ∈ value, base58Alphabet.contains c = true) :
    ∃ digits : List Nat, value = digits.map base58Char ∧ ∀ digit ∈ digits, digit < 58 := by
  induction value with
  | nil => exact ⟨[], rfl, by simp⟩
  | cons c value ih =>
      obtain ⟨hc, hvalue⟩ := List.forall_mem_cons.mp hall
      obtain ⟨digits, rfl, hdigits⟩ := ih hvalue
      have hsome : (base58Alphabet.findIdx? (· == c)).isSome = true := by
        rw [List.findIdx?_isSome, List.any_eq_true]
        exact ⟨c, List.contains_iff_mem.mp hc, beq_self_eq_true c⟩
      obtain ⟨digit, hread⟩ := Option.isSome_iff_exists.mp hsome
      obtain ⟨hdigit, rfl⟩ := eq_base58Char hread
      exact ⟨digit :: digits, rfl, List.forall_mem_cons.mpr ⟨hdigit, hdigits⟩⟩

/-! ## Leading zeros -/

theorem eq_replicate_append {α : Type} [DecidableEq α] (zero : α) (items : List α) :
    ∃ rest, items = List.replicate (items.takeWhile (· == zero)).length zero ++ rest ∧
      ∀ item ∈ rest.head?, item ≠ zero := by
  refine ⟨items.dropWhile (· == zero), ?_, ?_⟩
  · have hfront : items.takeWhile (· == zero) =
        List.replicate (items.takeWhile (· == zero)).length zero :=
      List.eq_replicate_iff.mpr ⟨rfl, fun item hitem => by
        simpa using List.mem_takeWhile_imp hitem⟩
    rw [← hfront, List.takeWhile_append_dropWhile]
  · intro item hitem hzero
    have hhead := List.head?_dropWhile_not (· == zero) items
    rw [Option.mem_def.mp hitem] at hhead
    simp [hzero] at hhead

theorem length_takeWhile_replicate {α : Type} [DecidableEq α] {zero : α} {rest : List α} (k : Nat)
    (hrest : ∀ item ∈ rest.head?, item ≠ zero) :
    ((List.replicate k zero ++ rest).takeWhile (· == zero)).length = k := by
  induction k with
  | zero =>
      cases rest with
      | nil => rfl
      | cons item rest =>
          have hitem := hrest item rfl
          rw [List.replicate_zero, List.nil_append, List.takeWhile_cons,
            if_neg (by simpa using hitem)]
          rfl
  | succ k ih =>
      rw [List.replicate_succ, List.cons_append, List.takeWhile_cons,
        if_pos (beq_self_eq_true zero), List.length_cons, ih]

theorem head?_reverse_digits {b : Nat} (n : Nat) :
    ∀ digit ∈ ((Nat.digits b n).reverse).head?, digit ≠ 0 := by
  intro digit hdigit
  rw [List.head?_reverse, Option.mem_def] at hdigit
  have hn : n ≠ 0 := by
    rintro rfl
    rw [Nat.digits_zero] at hdigit
    cases hdigit
  have hlast := Nat.getLast_digit_ne_zero b hn
  rwa [List.getLast_eq_iff_getLast?_eq_some _ |>.mpr hdigit] at hlast

/-! ## Round trips -/

theorem base58Char_zero : base58Char 0 = '1' := (base58Char_eq_one_iff (by decide)).mpr rfl

/-- Bytes are written as the digits of their number, behind a one for each leading zero. -/
theorem encodeBase58_eq {bytes : List UInt8} (hne : bytes ≠ []) :
    encodeBase58 bytes = (List.replicate (bytes.takeWhile (· == 0)).length 0 ++
      (Radix.numeral 58 (bytesValue bytes)).reverse).map base58Char := by
  have hempty : ¬ bytes.isEmpty = true := by simpa using hne
  rw [encodeBase58, if_neg hempty]
  simp only [foldl_pushByte, List.map_const', List.map_append, List.map_replicate, base58Char_zero]

theorem numeral_lt {b : Nat} (hb : 1 < b) (n : Nat) :
    ∀ digit ∈ Radix.numeral b n, digit < b := by
  unfold Radix.numeral
  split
  next => simpa using Nat.zero_lt_of_lt hb
  next => exact fun digit hdigit => Nat.digits_lt_base hb hdigit

/-- Bytes that start with a nonzero one are the numeral of their number. -/
theorem digits_bytesValue {byte : UInt8} {bytes : List UInt8} (hbyte : byte ≠ 0) :
    bytesValue (byte :: bytes) ≠ 0 ∧ Nat.digits 256 (bytesValue (byte :: bytes)) =
      ((byte :: bytes).map UInt8.toNat).reverse := by
  refine Radix.numeral_ofDigits (by decide) (fun hzero => hbyte (UInt8.toNat_inj.mp hzero)) ?_
  rw [← List.map_cons]
  intro other hother
  obtain ⟨b, -, rfl⟩ := List.mem_map.mp hother
  exact b.toNat_lt

theorem bytesValue_replicate_append (k : Nat) (bytes : List UInt8) :
    bytesValue (List.replicate k 0 ++ bytes) = bytesValue bytes := by
  rw [bytesValue, List.map_append, List.map_replicate]
  exact Radix.ofDigits_replicate_append 256 k (bytes.map UInt8.toNat)

/-- What is written in front of a number is read back in front of it. -/
theorem decodeBase58_encode_replicate {byte : UInt8} {bytes : List UInt8} (k : Nat)
    (hbyte : byte ≠ 0) :
    decodeBase58 (encodeBase58 (List.replicate k 0 ++ byte :: bytes)) =
      some ((List.replicate k 0 ++ byte :: bytes).map UInt8.toNat) := by
  obtain ⟨hvalue, hdigits⟩ := @digits_bytesValue byte bytes hbyte
  have hhead : ∀ item ∈ (byte :: bytes).head?, item ≠ 0 := by simpa using hbyte
  have hlt : ∀ digit ∈ List.replicate k 0 ++
      (Radix.numeral 58 (bytesValue (byte :: bytes))).reverse, digit < 58 := by
    intro digit hdigit
    rcases List.mem_append.mp hdigit with hzero | hdigit
    · rw [List.eq_of_mem_replicate hzero]
      decide
    · exact numeral_lt (by decide) _ digit (List.mem_reverse.mp hdigit)
  have hread : base58Value (List.replicate k 0 ++
      (Radix.numeral 58 (bytesValue (byte :: bytes))).reverse) = bytesValue (byte :: bytes) := by
    rw [base58Value, Radix.ofDigits_replicate_append, List.reverse_reverse,
      Radix.numeral_of_ne_zero hvalue, Nat.ofDigits_digits]
  rw [encodeBase58_eq (by simp), length_takeWhile_replicate k hhead, bytesValue_replicate_append,
    decodeBase58_map hlt (by simp [Radix.numeral_of_ne_zero hvalue, Nat.digits_ne_nil_iff_ne_zero,
      hvalue]), hread, Radix.numeral_of_ne_zero hvalue, Radix.numeral_of_ne_zero hvalue,
    length_takeWhile_replicate k (head?_reverse_digits _), hdigits, List.reverse_reverse,
    List.map_append, List.map_replicate]
  rfl

/-- Bytes that are all zero come back one longer than they were. -/
theorem decodeBase58_encode_zeros (k : Nat) :
    decodeBase58 (encodeBase58 (List.replicate (k + 1) 0)) =
      some (List.replicate (k + 3) 0) := by
  have hvalue : bytesValue (List.replicate (k + 1) 0) = 0 := by
    rw [← List.append_nil (List.replicate (k + 1) 0), bytesValue_replicate_append]
    rfl
  have hzeros : ((List.replicate (k + 1) (0 : UInt8)).takeWhile (· == 0)).length = k + 1 := by
    simp
  have htext : (List.replicate (k + 1) 0 ++ (Radix.numeral 58 0).reverse) =
      List.replicate (k + 2) 0 := by
    rw [Radix.numeral_zero, List.reverse_singleton, List.replicate_succ' (n := k + 1)]
  have hones : ((List.replicate (k + 2) 0).takeWhile (· == 0)).length = k + 2 := by
    simp
  have hread : base58Value (List.replicate (k + 2) 0) = 0 := by
    rw [base58Value, List.reverse_replicate, Nat.ofDigits_replicate_zero]
  rw [encodeBase58_eq (by simp), hzeros, hvalue, htext, decodeBase58_map (by simp) (by simp), hones,
    hread, Radix.numeral_zero, List.reverse_singleton, ← List.replicate_succ']

/-- Bytes survive base 58 exactly when they are none or not all zero. -/
theorem decodeBase58_encodeBase58_iff (bytes : List UInt8) :
    decodeBase58 (encodeBase58 bytes) = some (bytes.map UInt8.toNat) ↔
      bytes = [] ∨ ∃ byte ∈ bytes, byte ≠ 0 := by
  obtain ⟨rest, hsplit, hhead⟩ := eq_replicate_append 0 bytes
  cases rest with
  | nil =>
      rw [List.append_nil] at hsplit
      cases hk : (bytes.takeWhile (· == 0)).length with
      | zero =>
          rw [hk] at hsplit
          subst hsplit
          exact ⟨fun _ => Or.inl rfl, fun _ => rfl⟩
      | succ k =>
          rw [hk] at hsplit
          rw [hsplit, decodeBase58_encode_zeros]
          constructor
          · intro hsame
            have hlength := congrArg List.length (Option.some.inj hsame)
            simp at hlength
          · rintro (hnil | ⟨byte, hbyte, hne⟩)
            · simp at hnil
            · exact absurd (List.eq_of_mem_replicate hbyte) hne
  | cons byte rest =>
      have hbyte : byte ≠ 0 := hhead byte rfl
      rw [hsplit]
      exact ⟨fun _ => Or.inr ⟨byte, by simp, hbyte⟩, fun _ => decodeBase58_encode_replicate _ hbyte⟩

/-- One zero byte is written `11` and read back as three. -/
theorem zero_byte_grows :
    ¬ ∀ bytes : List UInt8, decodeBase58 (encodeBase58 bytes) = some (bytes.map UInt8.toNat) := by
  intro h
  have hgrown := (decodeBase58_encode_zeros 0).symm.trans (h [0])
  simp at hgrown

/-! ## The texts of keys -/

theorem lt_of_mem_numeral_byte {n : Nat} {bytes : List Nat}
    (hbytes : (Radix.numeral 256 n).reverse = bytes) : ∀ byte ∈ bytes, byte < 256 := by
  subst hbytes
  exact fun byte hbyte => numeral_lt (by decide) n byte (List.mem_reverse.mp hbyte)

theorem map_toNat_map_ofNat {bytes : List Nat} (hbytes : ∀ byte ∈ bytes, byte < 256) :
    (bytes.map UInt8.ofNat).map UInt8.toNat = bytes := by
  rw [List.map_map]
  refine (List.map_congr_left fun byte hbyte => ?_).trans (List.map_id _)
  exact UInt8.toNat_ofNat_of_lt' (hbytes byte hbyte)

/-- Bytes without a leading zero have one text that is read as them. -/
theorem encodeBase58_decodeBase58 {value : List Char} {byte : Nat} {bytes : List Nat}
    (hall : ∀ c ∈ value, base58Alphabet.contains c = true)
    (hread : decodeBase58 value = some (byte :: bytes)) (hbyte : byte ≠ 0) :
    ((byte :: bytes).map UInt8.ofNat).map UInt8.toNat = byte :: bytes ∧
      encodeBase58 ((byte :: bytes).map UInt8.ofNat) = value := by
  obtain ⟨digits, rfl, hdigits⟩ := exists_digits hall
  cases digits with
  | nil => cases hread
  | cons digit digits =>
      rw [decodeBase58_map hdigits (List.cons_ne_nil digit digits), Option.some.injEq] at hread
      -- a leading one would put a zero in front of the bytes
      have hdigit : digit ≠ 0 := by
        rintro rfl
        rw [List.takeWhile_cons, if_pos (beq_self_eq_true 0), List.length_cons,
          List.replicate_succ, List.cons_append, List.cons.injEq] at hread
        exact hbyte hread.1.symm
      rw [List.takeWhile_cons, if_neg (by simpa using hdigit), List.length_nil,
        List.replicate_zero, List.nil_append] at hread
      obtain ⟨hvalue, hwritten⟩ : base58Value (digit :: digits) ≠ 0 ∧
          Nat.digits 58 (base58Value (digit :: digits)) = (digit :: digits).reverse :=
        Radix.numeral_ofDigits (by decide) hdigit hdigits
      have hlt := map_toNat_map_ofNat (lt_of_mem_numeral_byte hread)
      have hsame : bytesValue ((byte :: bytes).map UInt8.ofNat) =
          base58Value (digit :: digits) := by
        rw [bytesValue, hlt, ← hread, List.reverse_reverse, Radix.numeral_of_ne_zero hvalue,
          Nat.ofDigits_digits]
      have hfirst : UInt8.ofNat byte ≠ 0 := by
        intro hzero
        rw [List.map_cons, List.map_cons, hzero, List.cons.injEq] at hlt
        exact hbyte hlt.1.symm
      refine ⟨hlt, ?_⟩
      rw [encodeBase58_eq (by simp), hsame, Radix.numeral_of_ne_zero hvalue, hwritten,
        List.reverse_reverse, List.map_cons, List.takeWhile_cons, if_neg (by simpa using hfirst)]
      rfl

theorem contains_encodeBase58 (bytes : List UInt8) :
    ∀ c ∈ encodeBase58 bytes, base58Alphabet.contains c = true := by
  intro c hc
  by_cases hempty : bytes = []
  · subst hempty
    cases hc
  · rw [encodeBase58_eq hempty] at hc
    obtain ⟨digit, hdigit, rfl⟩ := List.mem_map.mp hc
    refine contains_base58Char ?_
    rcases List.mem_append.mp hdigit with hzero | hdigit
    · rw [List.eq_of_mem_replicate hzero]
      decide
    · exact numeral_lt (by decide) _ digit (List.mem_reverse.mp hdigit)

theorem isDidKey_publicKeyToDidKey (publicKeyBytes : List UInt8) :
    isDidKey (publicKeyToDidKey publicKeyBytes) = true := by
  have hz : base58Alphabet.contains 'z' = true := by
    rw [base58Alphabet_eq]
    decide
  rw [isDidKey, publicKeyToDidKey, String.toList_ofList, List.drop_left, Bool.and_eq_true]
  refine ⟨List.isPrefixOf_iff_prefix.mpr (List.prefix_append _ _), ?_⟩
  rw [Bool.and_eq_true, List.all_eq_true, List.forall_mem_cons]
  exact ⟨rfl, hz, contains_encodeBase58 _⟩

theorem decodeDidKeyPayload_eq_some {methodSpecificId : List Char} {key : List UInt8} :
    decodeDidKeyPayload methodSpecificId = some key ↔
      ∃ encoded bytes, methodSpecificId = 'z' :: encoded ∧
        decodeBase58 encoded = some (0xed :: 0x01 :: bytes) ∧ bytes.length = 32 ∧
        bytes.map UInt8.ofNat = key := by
  unfold decodeDidKeyPayload
  split
  next encoded =>
    simp only [Option.bind_eq_bind, Option.bind_eq_some_iff, List.cons.injEq, true_and]
    constructor
    · rintro ⟨found, hfound, hkey⟩
      split at hkey
      next bytes =>
        simp only [List.length_cons, Option.ite_none_right_eq_some, Option.some.injEq] at hkey
        exact ⟨encoded, bytes, rfl, hfound, by omega, hkey.2⟩
      next => cases hkey
    · rintro ⟨_, bytes, rfl, hfound, hlength, hkey⟩
      refine ⟨_, hfound, ?_⟩
      simp only [List.length_cons, hlength, if_pos, hkey]
  next hother =>
    refine iff_of_false (by simp) ?_
    rintro ⟨encoded, bytes, rfl, -⟩
    exact hother encoded rfl

theorem extractPublicKeyFromDIDKey_eq_some {did hex : String} :
    extractPublicKeyFromDIDKey did = some hex ↔ isDidKey did = true ∧
      ∃ key, decodeDidKeyPayload (did.toList.drop didKeyPrefix.length) = some key ∧
        toHex key = hex := by
  simp only [extractPublicKeyFromDIDKey, Option.ite_none_right_eq_some, Option.map_eq_some_iff]

theorem extract_publicKeyToDidKey {publicKeyBytes : List UInt8}
    (hlength : publicKeyBytes.length = 32) :
    extractPublicKeyFromDIDKey (publicKeyToDidKey publicKeyBytes) =
      some (toHex publicKeyBytes) := by
  have hpayload := @decodeBase58_encode_replicate 0xed (0x01 :: publicKeyBytes) 0 (by decide)
  have hback : (publicKeyBytes.map UInt8.toNat).map UInt8.ofNat = publicKeyBytes := by
    rw [List.map_map]
    exact (List.map_congr_left fun b _ => UInt8.ofNat_toNat).trans (List.map_id _)
  refine extractPublicKeyFromDIDKey_eq_some.mpr ⟨isDidKey_publicKeyToDidKey _, publicKeyBytes,
    decodeDidKeyPayload_eq_some.mpr ⟨_, publicKeyBytes.map UInt8.toNat, ?_, hpayload, ?_, hback⟩,
    rfl⟩
  · rw [publicKeyToDidKey, String.toList_ofList, List.drop_left]
    rfl
  · rw [List.length_map, hlength]

example : publicKeyToDidKey [
    0x2e, 0x6f, 0xcc, 0xe3, 0x67, 0x01, 0xdc, 0x79, 0x14, 0x88, 0xe0, 0xd0, 0xb1, 0x74, 0x5c, 0xc1,
    0xe3, 0x3a, 0x4c, 0x1c, 0x9f, 0xcc, 0x41, 0xc6, 0x3b, 0xd3, 0x43, 0xdb, 0xbe, 0x09, 0x70, 0xe6] =
      "did:key:z6MkhaXgBZDvotDkL5257faiztiGiC2QtKLGpbnnEGta2doK" := by
  decide +kernel

/-- A key that is extracted from a text has that text. -/
theorem publicKeyToDidKey_of_extract {did hex : String}
    (h : extractPublicKeyFromDIDKey did = some hex) :
    ∃ key, Crypto.fromHex hex.toList = some key ∧ publicKeyToDidKey key = did := by
  obtain ⟨hdid, key, hpayload, rfl⟩ := extractPublicKeyFromDIDKey_eq_some.mp h
  obtain ⟨text, htext, -, hall⟩ := isDidKey_eq_true hdid
  rw [htext, List.drop_left] at hpayload
  obtain ⟨encoded, bytes, rfl, hread, -, rfl⟩ := decodeDidKeyPayload_eq_some.mp hpayload
  have hencoded := (List.forall_mem_cons.mp hall).2
  obtain ⟨-, hwritten⟩ := encodeBase58_decodeBase58 hencoded hread (by decide)
  refine ⟨bytes.map UInt8.ofNat, Crypto.fromHex_toHex _, ?_⟩
  have hpayloadBytes : encodeBase58 (0xed :: 0x01 :: bytes.map UInt8.ofNat) = encoded := hwritten
  rw [publicKeyToDidKey, hpayloadBytes, ← htext, String.ofList_toList]

/-- did:key texts and keys of 32 bytes correspond. -/
theorem didKey_bijective :
    (∀ p : List UInt8, p.length = 32 →
      extractPublicKeyFromDIDKey (didKeyFromPublicKey p) = some (toHex p)) ∧
    (∀ did hex : String, extractPublicKeyFromDIDKey did = some hex →
      ∃ key, Crypto.fromHex hex.toList = some key ∧ didKeyFromPublicKey key = did) ∧
    ∀ did did' hex : String, extractPublicKeyFromDIDKey did = some hex →
      extractPublicKeyFromDIDKey did' = some hex → did = did' := by
  refine ⟨fun p => extract_publicKeyToDidKey, fun did hex => publicKeyToDidKey_of_extract,
    fun did did' hex h h' => ?_⟩
  obtain ⟨key, hkey, hdid⟩ := publicKeyToDidKey_of_extract h
  obtain ⟨key', hkey', hdid'⟩ := publicKeyToDidKey_of_extract h'
  obtain rfl := Option.some.inj (hkey.symm.trans hkey')
  exact hdid.symm.trans hdid'

theorem didKey_bijective_sevens :
    extractPublicKeyFromDIDKey (didKeyFromPublicKey (List.replicate 32 7)) =
        some (toHex (List.replicate 32 7)) ∧
      ∃ key, Crypto.fromHex (toHex (List.replicate 32 7)).toList = some key ∧
        didKeyFromPublicKey key = didKeyFromPublicKey (List.replicate 32 7) := by
  have hread := didKey_bijective.1 (List.replicate 32 7) rfl
  exact ⟨hread, didKey_bijective.2.1 _ _ hread⟩

end Coivitas.Identity
