import Mathlib.Data.List.Basic
import Mathlib.Data.UInt
import Mathlib.Tactic.Ring

/-! # Big-endian numbers

Numbers written with a fixed number of bytes, the highest first, and read back.
-/

namespace Foundation

/-- The last `width` bytes of a number, the highest first. -/
def bigEndian : Nat → Nat → List UInt8
  | 0, _ => []
  | width + 1, value => UInt8.ofNat (value / 256 ^ width) :: bigEndian width value

/-- The number that the bytes add to one read before them. -/
def readBigEndian (start : Nat) (bytes : List UInt8) : Nat :=
  bytes.foldl (fun value byte => value * 256 + byte.toNat) start

@[simp] theorem length_bigEndian (width value : Nat) : (bigEndian width value).length = width := by
  induction width with
  | zero => rfl
  | succ width ih => simp [bigEndian, ih]

/-- Only the last `width` bytes of a number are written. -/
theorem bigEndian_add_mul (width value high : Nat) :
    bigEndian width (value + high * 256 ^ width) = bigEndian width value := by
  induction width generalizing high with
  | zero => rfl
  | succ width ih =>
      have hsplit : value + high * 256 ^ (width + 1) = value + high * 256 * 256 ^ width := by
        rw [pow_succ, mul_assoc, mul_comm 256]
      have hbyte : UInt8.ofNat ((value + high * 256 * 256 ^ width) / 256 ^ width) =
          UInt8.ofNat (value / 256 ^ width) := by
        rw [Nat.add_mul_div_right _ _ (Nat.pow_pos (by decide))]
        apply UInt8.toNat_inj.mp
        simp
      rw [hsplit, bigEndian, bigEndian, hbyte, ih]

theorem bigEndian_mod (width value : Nat) :
    bigEndian width (value % 256 ^ width) = bigEndian width value := by
  rw [← bigEndian_add_mul width (value % 256 ^ width) (value / 256 ^ width), mul_comm,
    Nat.mod_add_div]

/-- A number is written as its high part and then its low part. -/
theorem bigEndian_append (high low value : Nat) :
    bigEndian high (value / 256 ^ low) ++ bigEndian low value = bigEndian (high + low) value := by
  induction high with
  | zero => simp [bigEndian]
  | succ high ih =>
      rw [Nat.succ_add, bigEndian, bigEndian, List.cons_append, ih, Nat.div_div_eq_div_mul, pow_add,
        mul_comm (256 ^ low)]

theorem readBigEndian_bigEndian (start width value : Nat) :
    readBigEndian start (bigEndian width value) = start * 256 ^ width + value % 256 ^ width := by
  induction width generalizing start with
  | zero => simp [bigEndian, readBigEndian, Nat.mod_one]
  | succ width ih =>
      have hread : readBigEndian start (bigEndian (width + 1) value) =
          readBigEndian (start * 256 + (UInt8.ofNat (value / 256 ^ width)).toNat)
            (bigEndian width value) := rfl
      have hmod : value % 256 ^ (width + 1) =
          value % 256 ^ width + 256 ^ width * (value / 256 ^ width % 256) := by
        rw [pow_succ, Nat.mod_mul]
      rw [hread, ih, hmod, UInt8.toNat_ofNat']
      ring

end Foundation
