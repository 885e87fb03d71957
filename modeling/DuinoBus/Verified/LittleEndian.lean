import Mathlib.Algebra.Group.Nat.Defs

/-!
# Little-endian numbers

`leBytes` is a number in a fixed number of bytes, the lowest first, and
`leValue` the number that some bytes stand for.  They are inverse on numbers
that fit.

`Pod` is a type whose values are copied as the bytes that they have in
memory.  The unsigned integers of a little-endian machine are such types.
-/

namespace DuinoBus.Verified

/-- The lowest `width` bytes of a number. -/
def leBytes : Nat → Nat → List UInt8
  | 0, _ => []
  | width + 1, n => UInt8.ofNat n :: leBytes width (n / 256)

/-- The number that some bytes stand for. -/
def leValue (bs : List UInt8) : Nat :=
  bs.foldr (fun b n => b.toNat + 256 * n) 0

@[simp] theorem length_leBytes (width n : Nat) :
    (leBytes width n).length = width := by
  induction width generalizing n with
  | zero => rfl
  | succ width ih => rw [leBytes, List.length_cons, ih]

/-- **Reading a number back** yields it modulo the range of its width. -/
theorem leValue_leBytes (width n : Nat) :
    leValue (leBytes width n) = n % 256 ^ width := by
  induction width generalizing n with
  | zero => rw [Nat.pow_zero, Nat.mod_one, leBytes, leValue, List.foldr_nil]
  | succ width ih =>
      have hrest := ih (n / 256)
      rw [leValue] at hrest
      rw [leBytes, leValue, List.foldr_cons, hrest, Nat.pow_succ',
        Nat.mod_mul]
      have hbyte : (UInt8.ofNat n).toNat = n % 256 := UInt8.toNat_ofNat'
      rw [hbyte]

theorem leValue_leBytes_of_lt {width n : Nat} (h : n < 256 ^ width) :
    leValue (leBytes width n) = n := by
  rw [leValue_leBytes, Nat.mod_eq_of_lt h]

/-- A number and what is left of it within its width have the same bytes. -/
theorem leBytes_mod (width n : Nat) :
    leBytes width (n % 256 ^ width) = leBytes width n := by
  induction width generalizing n with
  | zero => rfl
  | succ width ih =>
      rw [leBytes, leBytes, Nat.pow_succ', Nat.mod_mul_right_div_self, ih]
      congr 1
      apply UInt8.toNat_inj.mp
      rw [UInt8.toNat_ofNat', UInt8.toNat_ofNat']
      exact Nat.mod_mul_right_mod n 256 (256 ^ width)

/-- The number is within the range of its width. -/
theorem leValue_lt (bs : List UInt8) : leValue bs < 256 ^ bs.length := by
  induction bs with
  | nil => exact Nat.one_pos
  | cons b bs ih =>
      have hb := b.toNat_lt
      have hcons : leValue (b :: bs) = b.toNat + 256 * leValue bs := rfl
      rw [hcons, List.length_cons, Nat.pow_succ']
      omega

/-! ## Values in memory -/

/-- A type whose values are copied as bytes: their number, and the bytes of a
value, which determine it. -/
class Pod (T : Type) where
  size : Nat
  toBytes : T → List UInt8
  ofBytes : List UInt8 → T
  length_toBytes : ∀ value, (toBytes value).length = size
  ofBytes_toBytes : ∀ value, ofBytes (toBytes value) = value

instance : Pod UInt8 where
  size := 1
  toBytes value := leBytes 1 value.toNat
  ofBytes bytes := UInt8.ofNat (leValue bytes)
  length_toBytes value := length_leBytes 1 value.toNat
  ofBytes_toBytes value := by
    rw [leValue_leBytes_of_lt value.toNat_lt, UInt8.ofNat_toNat]

instance : Pod UInt16 where
  size := 2
  toBytes value := leBytes 2 value.toNat
  ofBytes bytes := UInt16.ofNat (leValue bytes)
  length_toBytes value := length_leBytes 2 value.toNat
  ofBytes_toBytes value := by
    rw [leValue_leBytes_of_lt value.toNat_lt, UInt16.ofNat_toNat]

instance : Pod UInt32 where
  size := 4
  toBytes value := leBytes 4 value.toNat
  ofBytes bytes := UInt32.ofNat (leValue bytes)
  length_toBytes value := length_leBytes 4 value.toNat
  ofBytes_toBytes value := by
    rw [leValue_leBytes_of_lt value.toNat_lt, UInt32.ofNat_toNat]

@[simp] theorem toBytes_byte (b : UInt8) : Pod.toBytes b = [b] := by
  show [UInt8.ofNat b.toNat] = [b]
  rw [UInt8.ofNat_toNat]

end DuinoBus.Verified
