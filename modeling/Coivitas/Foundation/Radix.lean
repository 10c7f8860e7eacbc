import Mathlib.Data.Nat.Digits.Defs

/-! # Changing the base of a number

Numbers are little-endian lists of digits; the numeral of zero has one digit. A digit
of another base is pushed onto a numeral by scaling all its digits and carrying, so a
text in that base is read by pushing its digits one after the other.
-/

namespace Foundation.Radix

/-- Scale every digit by `a` and carry in base `b`. -/
def scale (a b : Nat) : List Nat → Nat → List Nat × Nat
  | [], carry => ([], carry)
  | digit :: digits, carry =>
      let value := digit * a + carry
      let (rest, carry') := scale a b digits (value / b)
      (value % b :: rest, carry')

/-- The digits of a carry, no more than the fuel. -/
def carryDigits (b : Nat) : Nat → Nat → List Nat
  | 0, _ => []
  | fuel + 1, carry => if carry = 0 then [] else carry % b :: carryDigits b fuel (carry / b)

def push (a b fuel : Nat) (digits : List Nat) (digit : Nat) : List Nat :=
  let (digits', carry) := scale a b digits digit
  digits' ++ carryDigits b fuel carry

def numeral (b n : Nat) : List Nat := if n = 0 then [0] else Nat.digits b n

variable {a b : Nat}

theorem carryDigits_eq (hb : 1 < b) {fuel carry : Nat} (hcarry : carry < b ^ fuel) :
    carryDigits b fuel carry = Nat.digits b carry := by
  induction fuel generalizing carry with
  | zero =>
      obtain rfl : carry = 0 := by simpa using hcarry
      rw [carryDigits, Nat.digits_zero]
  | succ fuel ih =>
      have hrest : carry / b < b ^ fuel := by
        rw [Nat.div_lt_iff_lt_mul (by omega), ← pow_succ]
        exact hcarry
      rw [carryDigits]
      split
      next hzero => rw [hzero, Nat.digits_zero]
      next hzero => rw [ih hrest, Nat.digits_def' hb (Nat.pos_of_ne_zero hzero)]

/-- Scaling the digits of a number and then writing the carry gives the digits of the
scaled number. -/
theorem scale_digits (ha : 0 < a) (hb : 1 < b) (n carry : Nat) :
    (scale a b (Nat.digits b n) carry).1 ++
        Nat.digits b (scale a b (Nat.digits b n) carry).2 =
      Nat.digits b (n * a + carry) := by
  induction n using Nat.strong_induction_on generalizing carry with
  | _ n ih =>
    by_cases hzero : n = 0
    · subst hzero
      rw [Nat.digits_zero, scale, List.nil_append, Nat.zero_mul, Nat.zero_add]
    · have hpos : 0 < n := Nat.pos_of_ne_zero hzero
      have hsplit : n * a + carry = n % b * a + carry + b * (n / b * a) := by
        have hn : (n % b + b * (n / b)) * a = n * a := by rw [Nat.mod_add_div]
        rw [← hn, add_mul, mul_assoc]
        omega
      have hhead : (n * a + carry) % b = (n % b * a + carry) % b := by
        rw [hsplit, Nat.add_mul_mod_self_left]
      have htail : (n * a + carry) / b = n / b * a + (n % b * a + carry) / b := by
        rw [hsplit, Nat.add_mul_div_left _ _ (by omega), Nat.add_comm]
      have hscaled : 0 < n * a + carry := Nat.add_pos_left (Nat.mul_pos hpos ha) carry
      rw [Nat.digits_def' hb hpos, Nat.digits_def' hb hscaled, hhead, htail, ← ih (n / b)
        (Nat.div_lt_self hpos hb), scale, List.cons_append]

/-- The carry stays below the base that is pushed. -/
theorem scale_carry_lt {digits : List Nat} {carry : Nat} (hdigits : ∀ digit ∈ digits, digit < b)
    (hcarry : carry < a) : (scale a b digits carry).2 < a := by
  induction digits generalizing carry with
  | nil => exact hcarry
  | cons digit digits ih =>
      have hdigit := hdigits digit List.mem_cons_self
      refine ih (fun other hother => hdigits other (List.mem_cons_of_mem _ hother)) ?_
      rw [Nat.div_lt_iff_lt_mul (by omega)]
      calc digit * a + carry < digit * a + a := by omega
        _ = (digit + 1) * a := by rw [Nat.add_mul, Nat.one_mul]
        _ ≤ b * a := Nat.mul_le_mul_right a hdigit
        _ = a * b := Nat.mul_comm b a

/-- Pushing a digit scales the number and adds the digit. -/
theorem push_numeral (hb : 1 < b) {fuel n digit : Nat} (hfuel : a ≤ b ^ fuel)
    (hdigit : digit < a) :
    push a b fuel (numeral b n) digit = numeral b (digit + a * n) := by
  have ha : 0 < a := by omega
  unfold numeral
  split
  next hzero =>
    subst hzero
    have hcarry : digit / b < b ^ fuel :=
      (Nat.div_le_self digit b).trans_lt (hdigit.trans_le hfuel)
    simp only [push, scale, Nat.zero_mul, Nat.zero_add, Nat.mul_zero, Nat.add_zero,
      carryDigits_eq hb hcarry, List.singleton_append]
    split
    next hnone => rw [hnone, Nat.zero_mod, Nat.zero_div, Nat.digits_zero]
    next hsome => rw [Nat.digits_def' hb (Nat.pos_of_ne_zero hsome)]
  next hzero =>
    have hpositive : digit + a * n ≠ 0 := by
      have := Nat.mul_pos ha (Nat.pos_of_ne_zero hzero)
      omega
    have hcarry : (scale a b (Nat.digits b n) digit).2 < b ^ fuel :=
      (scale_carry_lt (fun _ hmem => Nat.digits_lt_base hb hmem) hdigit).trans_le hfuel
    have hpush : push a b fuel (Nat.digits b n) digit = (scale a b (Nat.digits b n) digit).1 ++
        carryDigits b fuel (scale a b (Nat.digits b n) digit).2 := rfl
    rw [if_neg hpositive, hpush, carryDigits_eq hb hcarry, scale_digits ha hb, Nat.mul_comm n a,
      Nat.add_comm]

/-- Pushing the digits of a text one after the other reads it in the new base. -/
theorem foldl_push (hb : 1 < b) {fuel : Nat} (hfuel : a ≤ b ^ fuel) {digits : List Nat}
    (hdigits : ∀ digit ∈ digits, digit < a) :
    digits.foldl (push a b fuel) [0] = numeral b (Nat.ofDigits a digits.reverse) := by
  have hfold : ∀ n, digits.foldl (push a b fuel) (numeral b n) =
      numeral b (digits.foldl (fun n digit => digit + a * n) n) := by
    induction digits with
    | nil => exact fun n => rfl
    | cons digit digits ih =>
        intro n
        rw [List.foldl_cons, List.foldl_cons,
          push_numeral hb hfuel (hdigits digit List.mem_cons_self)]
        exact ih (fun other hother => hdigits other (List.mem_cons_of_mem _ hother)) _
  rw [Nat.ofDigits_eq_foldr, List.foldr_reverse]
  exact hfold 0

/-- A text without a leading zero is the numeral of its number, read backwards. -/
theorem numeral_ofDigits (ha : 1 < a) {digit : Nat} {digits : List Nat} (hdigit : digit ≠ 0)
    (hdigits : ∀ other ∈ digit :: digits, other < a) :
    Nat.ofDigits a (digit :: digits).reverse ≠ 0 ∧
      Nat.digits a (Nat.ofDigits a (digit :: digits).reverse) = (digit :: digits).reverse := by
  have hread : Nat.digits a (Nat.ofDigits a (digit :: digits).reverse) =
      (digit :: digits).reverse :=
    Nat.digits_ofDigits a ha _ (fun other hother => hdigits other (List.mem_reverse.mp hother))
      fun _ => by simpa using hdigit
  refine ⟨fun hzero => ?_, hread⟩
  rw [hzero, Nat.digits_zero] at hread
  simp at hread

theorem ofDigits_replicate_append (a k : Nat) (digits : List Nat) :
    Nat.ofDigits a (List.replicate k 0 ++ digits).reverse = Nat.ofDigits a digits.reverse := by
  rw [List.reverse_append, List.reverse_replicate, Nat.ofDigits_append_replicate_zero]

theorem numeral_of_ne_zero {n : Nat} (hn : n ≠ 0) : numeral b n = Nat.digits b n := if_neg hn

theorem numeral_zero : numeral b 0 = [0] := rfl

end Foundation.Radix
