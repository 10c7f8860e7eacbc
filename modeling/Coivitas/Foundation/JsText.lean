import Mathlib.Data.List.Basic

/-! # Numbers in texts

How the runtime reads a number from a text.
-/

namespace Foundation

/-- The white space around a number. -/
def isJsSpace (c : Char) : Bool :=
  (9 ≤ c.toNat && c.toNat ≤ 13) || (0x2000 ≤ c.toNat && c.toNat ≤ 0x200a) ||
    [0x20, 0xa0, 0x1680, 0x2028, 0x2029, 0x202f, 0x205f, 0x3000, 0xfeff].contains c.toNat

def trimJs (text : List Char) : List Char :=
  ((text.dropWhile isJsSpace).reverse.dropWhile isJsSpace).reverse

def digit? (base : Nat) (c : Char) : Option Nat :=
  let value :=
    if '0' ≤ c ∧ c ≤ '9' then c.toNat - 48
    else if 'a' ≤ c ∧ c ≤ 'z' then c.toNat - 87
    else if 'A' ≤ c ∧ c ≤ 'Z' then c.toNat - 55
    else base
  if value < base then some value else none

/-- The number of a text of digits, of one digit at least. -/
def digits? (base : Nat) (text : List Char) : Option Int :=
  if text = [] then none
  else (text.mapM (digit? base)).map fun values =>
    values.foldl (fun n value => n * base + value) 0

/-- `BigInt(text)`; `none` is a `SyntaxError`. -/
def bigInt (text : String) : Option Int :=
  match trimJs text.toList with
  | [] => some 0
  | '0' :: 'x' :: rest => digits? 16 rest
  | '0' :: 'X' :: rest => digits? 16 rest
  | '0' :: 'o' :: rest => digits? 8 rest
  | '0' :: 'O' :: rest => digits? 8 rest
  | '0' :: 'b' :: rest => digits? 2 rest
  | '0' :: 'B' :: rest => digits? 2 rest
  | '-' :: rest => (digits? 10 rest).map (- ·)
  | '+' :: rest => digits? 10 rest
  | rest => digits? 10 rest

example : bigInt " -042 " = some (-42) ∧ bigInt "0xfF" = some 255 ∧ bigInt "4.2" = none := by
  decide +kernel

/-! ## Decimal digits -/

theorem toNat_of_isDigit {c : Char} (hc : c.isDigit = true) : 48 ≤ c.toNat ∧ c.toNat ≤ 57 := by
  simp only [Char.isDigit, Bool.and_eq_true, decide_eq_true_eq] at hc
  exact hc

theorem digit?_ten {c : Char} (hc : c.isDigit = true) : digit? 10 c = some (c.toNat - 48) := by
  have hbounds := toNat_of_isDigit hc
  have hdigit : '0' ≤ c ∧ c ≤ '9' := hbounds
  rw [digit?, if_pos hdigit]
  exact if_pos (by omega)

/-- The values of the digits are accumulated as by the library. -/
theorem foldl_digits (text : List Char) (start : Nat) :
    List.foldl (fun n value : Int => n * (10 : Nat) + value) start
        ((text.map fun c => c.toNat - 48).map Nat.cast) =
      (Nat.ofDigitChars 10 text start : Nat) := by
  induction text generalizing start with
  | nil => rfl
  | cons c text ih =>
      have hzero : '0'.toNat = 48 := rfl
      rw [Nat.ofDigitChars_cons, ← ih, List.map_cons, List.map_cons, List.foldl_cons,
        Nat.mul_comm 10 start, hzero, Int.natCast_add, Int.natCast_mul]

/-- A text of decimal digits is read as the library reads it. -/
theorem digits?_ten {text : List Char} (hne : text ≠ []) (htext : ∀ c ∈ text, c.isDigit = true) :
    digits? 10 text = some ((Nat.ofDigitChars 10 text 0 : Nat) : Int) := by
  have hvalues : text.mapM (digit? 10) = some (text.map fun c => c.toNat - 48) := by
    clear hne
    induction text with
    | nil => rfl
    | cons c text ih =>
        rw [List.forall_mem_cons] at htext
        rw [List.mapM_cons, digit?_ten htext.1, ih htext.2]
        rfl
  rw [digits?, if_neg hne, hvalues, Option.map_some]
  rw [List.bind_eq_flatMap, ← foldl_digits]
  exact congrArg (fun values => some (List.foldl _ _ values)) (List.flatMap_pure_eq_map _ _)

theorem isJsSpace_of_isDigit {c : Char} (hc : c.isDigit = true) : isJsSpace c = false := by
  have hbounds := toNat_of_isDigit hc
  simp [isJsSpace]
  omega

theorem trimJs_of_digits {text : List Char} (htext : ∀ c ∈ text, c.isDigit = true) :
    trimJs text = text := by
  have hdrop : ∀ text : List Char, (∀ c ∈ text, c.isDigit = true) →
      text.dropWhile isJsSpace = text := by
    intro text htext
    cases text with
    | nil => rfl
    | cons c text =>
        rw [List.dropWhile_cons_of_neg]
        simp [isJsSpace_of_isDigit (htext c List.mem_cons_self)]
  rw [trimJs, hdrop text htext, hdrop text.reverse (by simpa using htext), List.reverse_reverse]

theorem bigInt_toString (n : Nat) : bigInt (toString n) = some (n : Int) := by
  have hdigits : ∀ c ∈ Nat.toDigits 10 n, c.isDigit = true := fun c hc =>
    Nat.isDigit_of_mem_toDigits (by decide) (by decide) hc
  have hread : digits? 10 (Nat.toDigits 10 n) = some (n : Int) := by
    rw [digits?_ten Nat.toDigits_ne_nil hdigits, Nat.ofDigitChars_ten_toDigits]
  have htext : (toString n).toList = Nat.toDigits 10 n := by
    simp
  have hhead : ∀ c rest, Nat.toDigits 10 n = c :: rest → c.isDigit = true := fun c rest h =>
    hdigits c (h ▸ List.mem_cons_self)
  have hsecond : ∀ c c' rest, Nat.toDigits 10 n = c :: c' :: rest → c'.isDigit = true :=
    fun c c' rest h => hdigits c' (h ▸ List.mem_cons_of_mem _ List.mem_cons_self)
  rw [bigInt, htext, trimJs_of_digits hdigits]
  split
  next hnil => exact absurd hnil Nat.toDigits_ne_nil
  next heq => exact absurd (hsecond _ _ _ heq) (by decide)
  next heq => exact absurd (hsecond _ _ _ heq) (by decide)
  next heq => exact absurd (hsecond _ _ _ heq) (by decide)
  next heq => exact absurd (hsecond _ _ _ heq) (by decide)
  next heq => exact absurd (hsecond _ _ _ heq) (by decide)
  next heq => exact absurd (hsecond _ _ _ heq) (by decide)
  next heq => exact absurd (hhead _ _ heq) (by decide)
  next heq => exact absurd (hhead _ _ heq) (by decide)
  next => exact hread

end Foundation
