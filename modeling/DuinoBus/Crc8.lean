import Mathlib.Algebra.Group.Nat.Defs
import DuinoBus.Verified.LinearCheck
import DuinoBus.Wire

/-!
# The CRC as a linear check

`crc8Poly07` folded over a command and its data is the register of
`DuinoBus.Verified.LinearCheck` over bytes with exclusive or.  A turn is
eight shifts, each of them additive, and no turn takes a byte other than zero
to zero.

A burst is damage confined to eight consecutive bits, counted from the most
significant bit of the first byte on.  It touches two neighbouring bytes at
most, and the second never cancels what a turn makes of the first
(`burst_pair_ne_zero`), so every burst is caught: `checksum_ne_of_burst`.
-/

namespace DuinoBus.Crc8

open DuinoBus.Wire
open DuinoBus.Verified

/-! ## Bytes with exclusive or -/

/-- A byte, added by exclusive or. -/
def Octet := UInt8

instance : Zero Octet := ⟨(0 : UInt8)⟩

instance : Add Octet := ⟨UInt8.xor⟩

instance : Neg Octet := ⟨fun x => x⟩

instance : AddCommGroup Octet where
  add_assoc x y z := UInt8.xor_assoc x y z
  zero_add _ := UInt8.zero_xor
  add_zero _ := UInt8.xor_zero
  neg_add_cancel _ := UInt8.xor_self
  add_comm x y := UInt8.xor_comm x y
  nsmul := nsmulRec
  zsmul := zsmulRec

/-- One shift of the register. -/
def shift (c : UInt8) : UInt8 :=
  if c &&& 0x80 = 0 then c <<< 1 else (c <<< 1) ^^^ 0x07

theorem msb_cases (c : UInt8) : c &&& 0x80 = 0 ∨ c &&& 0x80 = 0x80 := by
  have hall : ∀ n < 256, UInt8.ofNat n &&& 0x80 = 0 ∨
      UInt8.ofNat n &&& 0x80 = 0x80 := by decide +kernel
  have hc := hall c.toNat c.toNat_lt
  rwa [UInt8.ofNat_toNat] at hc

theorem shift_low {c : UInt8} (h : c &&& 0x80 = 0) : shift c = c <<< 1 := by
  rw [shift, if_pos h]

theorem shift_high {c : UInt8} (h : c &&& 0x80 = 0x80) :
    shift c = (c <<< 1) ^^^ 0x07 := by
  have hne : ¬ c &&& 0x80 = 0 := by
    rw [h]
    decide
  rw [shift, if_neg hne]

theorem msb_xor (x y : UInt8) :
    (x ^^^ y) &&& 0x80 = (x &&& 0x80) ^^^ (y &&& 0x80) := by
  apply UInt8.toBitVec_inj.mp
  ext i
  simp only [UInt8.toBitVec_and, UInt8.toBitVec_xor, BitVec.getElem_and,
    BitVec.getElem_xor, Bool.and_xor_distrib_right]

/-- **A shift is additive**: the polynomial is taken off when the top bits
differ, once or twice otherwise. -/
theorem shift_xor (x y : UInt8) : shift (x ^^^ y) = shift x ^^^ shift y := by
  have hmsb := msb_xor x y
  have hshift : (x ^^^ y) <<< 1 = (x <<< 1) ^^^ (y <<< 1) := UInt8.shiftLeft_xor
  rcases msb_cases x with hx | hx <;> rcases msb_cases y with hy | hy
  all_goals rw [hx, hy] at hmsb
  · rw [shift_low hmsb, shift_low hx, shift_low hy, hshift]
  · rw [shift_high hmsb, shift_low hx, shift_high hy, hshift,
      UInt8.xor_assoc]
  · rw [shift_high hmsb, shift_high hx, shift_low hy, hshift]
    ac_rfl
  · rw [shift_low hmsb, shift_high hx, shift_high hy, hshift]
    have hcancel : ∀ a b p : UInt8, (a ^^^ p) ^^^ (b ^^^ p) = a ^^^ b := by
      intro a b p
      rw [UInt8.xor_comm b p, UInt8.xor_assoc, ← UInt8.xor_assoc p,
        UInt8.xor_self, UInt8.zero_xor]
    rw [hcancel]

/-- Eight shifts. -/
def shifts : Nat → UInt8 → UInt8
  | 0, c => c
  | n + 1, c => shifts n (shift c)

theorem shifts_xor (n : Nat) (x y : UInt8) :
    shifts n (x ^^^ y) = shifts n x ^^^ shifts n y := by
  induction n generalizing x y with
  | zero => rfl
  | succ n ih =>
      show shifts n (shift (x ^^^ y)) = _
      rw [shift_xor, ih]
      rfl

/-- One turn of the register. -/
def turn : Octet →+ Octet where
  toFun := shifts 8
  map_zero' := by
    show shifts 8 (0 : UInt8) = 0
    decide
  map_add' x y := shifts_xor 8 x y

theorem crc8Poly07_eq (crc byte : UInt8) :
    crc8Poly07 crc byte = shifts 8 (crc ^^^ byte) := rfl

/-- **The checksum is the register** after the command and the data. -/
theorem checksum_eq_residue (command : UInt8) (data : List UInt8) :
    checksum crc8Poly07 command data =
      LinearCheck.residue turn (0 : Octet) (command :: data) := rfl

/-! ## Bursts -/

/-- Bit `i` of some bytes, most significant bit first. -/
def bitAt (bytes : List UInt8) (i : Nat) : Bool :=
  (bytes.getD (i / 8) 0).toNat.testBit (7 - i % 8)

theorem bitAt_of_le {bytes : List UInt8} {i : Nat}
    (h : 8 * bytes.length ≤ i) : bitAt bytes i = false := by
  have hnone : bytes[i / 8]? = none := List.getElem?_eq_none (by omega)
  rw [bitAt, List.getD_eq_getElem?_getD, hnone]
  exact Nat.zero_testBit _

/-- The received bytes differ from the sent ones, as many, in no bit outside
eight consecutive ones. -/
structure Burst (sent received : List UInt8) : Prop where
  length : sent.length = received.length
  differs : sent ≠ received
  confined : ∃ s, ∀ i, bitAt sent i ≠ bitAt received i → s ≤ i ∧ i < s + 8

/-- What the error added to the bytes. -/
def damage (sent received : List UInt8) : List UInt8 :=
  List.zipWith (· ^^^ ·) sent received

/-- What a turn makes of a byte whose top `t` bits are zero is not zero in all
of the low `8 - t` bits. -/
theorem turn_low_bits : ∀ t < 8, ∀ n < 2 ^ (8 - t),
    (shifts 8 (UInt8.ofNat n)).toNat % 2 ^ (8 - t) = 0 → n = 0 := by
  decide +kernel

theorem shifts_eq_zero {a : UInt8} (h : shifts 8 a = 0) : a = 0 := by
  have ha : a.toNat = 0 := by
    apply turn_low_bits 0 (by decide) a.toNat a.toNat_lt
    rw [UInt8.ofNat_toNat, h]
    rfl
  exact UInt8.toNat_inj.mp ha

/-- The second byte of a burst does not cancel the first. -/
theorem burst_pair_ne_zero {t : Nat} (ht : t < 8) {a b : UInt8}
    (ha : a.toNat < 2 ^ (8 - t)) (hb : b.toNat % 2 ^ (8 - t) = 0)
    (hab : a ≠ 0 ∨ b ≠ 0) : shifts 8 a ^^^ b ≠ 0 := by
  intro hzero
  have hturned : shifts 8 a = b := UInt8.xor_eq_zero_iff.mp hzero
  have hnat : a.toNat = 0 := by
    apply turn_low_bits t ht a.toNat ha
    rw [UInt8.ofNat_toNat, hturned]
    exact hb
  have ha0 : a = 0 := UInt8.toNat_inj.mp hnat
  rcases hab with ha' | hb'
  · exact ha' ha0
  · apply hb'
    rw [← hturned, ha0]
    decide

section Shape

variable {sent received : List UInt8}

/-- A bit of the damage is a bit in which the bytes differ. -/
theorem differ_of_testBit {k j : Nat} {x : UInt8}
    (hx : (damage sent received)[k]? = some x) (hj : j < 8)
    (hbit : x.toNat.testBit j = true) :
    bitAt sent (8 * k + (7 - j)) ≠ bitAt received (8 * k + (7 - j)) := by
  rw [damage, List.getElem?_zipWith_eq_some] at hx
  obtain ⟨u, v, hu, hv, rfl⟩ := hx
  rw [UInt8.toNat_xor, Nat.testBit_xor] at hbit
  have hdiv : (8 * k + (7 - j)) / 8 = k := by omega
  have hmod : 7 - (8 * k + (7 - j)) % 8 = j := by omega
  rw [bitAt, bitAt, hdiv, hmod, List.getD_eq_getElem?_getD,
    List.getD_eq_getElem?_getD, hu, hv]
  intro heq
  rw [Option.getD_some, Option.getD_some] at heq
  rw [heq, Bool.xor_self] at hbit
  cases hbit

/-- The damage of a burst: two neighbouring bytes at most, of which the first
has `t` leading zeros and the second `8 - t` trailing ones. -/
theorem shape_of_confined {s : Nat} (h : ∀ i,
      bitAt sent i ≠ bitAt received i → s ≤ i ∧ i < s + 8)
    {k : Nat} {x : UInt8} (hx : (damage sent received)[k]? = some x) :
    (k ≠ s / 8 → k ≠ s / 8 + 1 → x = 0) ∧
      (k = s / 8 → x.toNat < 2 ^ (8 - s % 8)) ∧
      (k = s / 8 + 1 → x.toNat % 2 ^ (8 - s % 8) = 0) := by
  have hclear : ∀ j, j < 8 → ¬ (s ≤ 8 * k + (7 - j) ∧
      8 * k + (7 - j) < s + 8) → x.toNat.testBit j = false := by
    intro j hj hout
    apply Bool.eq_false_iff.mpr
    intro hbit
    exact hout (h _ (differ_of_testBit hx hj hbit))
  have hhigh : ∀ j, 8 ≤ j → x.toNat.testBit j = false := by
    intro j hj
    apply Nat.testBit_lt_two_pow
    exact Nat.lt_of_lt_of_le x.toNat_lt (Nat.pow_le_pow_right (by decide) hj)
  refine ⟨?_, ?_, ?_⟩
  · intro hk hk'
    apply UInt8.toNat_inj.mp
    apply Nat.eq_of_testBit_eq
    intro j
    rw [show (0 : UInt8).toNat = 0 from rfl, Nat.zero_testBit]
    by_cases hj : j < 8
    · exact hclear j hj (by omega)
    · exact hhigh j (by omega)
  · intro hk
    apply Nat.lt_pow_two_of_testBit
    intro j hj
    by_cases hj8 : j < 8
    · exact hclear j hj8 (by omega)
    · exact hhigh j (by omega)
  · intro hk
    apply Nat.eq_of_testBit_eq
    intro j
    rw [Nat.testBit_mod_two_pow, Nat.zero_testBit]
    by_cases hj : j < 8 - s % 8
    · rw [hclear j (by omega) (by omega), Bool.and_false]
    · rw [decide_eq_false hj, Bool.false_and]

/-- Bytes that differ are damaged somewhere. -/
theorem exists_damage (h : Burst sent received) :
    ∃ x ∈ damage sent received, x ≠ 0 := by
  by_contra hnone
  have hzero : ∀ x ∈ damage sent received, x = 0 := by
    intro x hx
    by_contra hne
    exact hnone ⟨x, hx, hne⟩
  apply h.differs
  apply List.ext_getElem h.length
  intro i hi hi'
  have hmem : sent[i] ^^^ received[i] ∈ damage sent received := by
    apply List.mem_of_getElem? (i := i)
    rw [damage, List.getElem?_zipWith_eq_some]
    exact ⟨_, _, List.getElem?_eq_getElem hi, List.getElem?_eq_getElem hi',
      rfl⟩
  exact UInt8.xor_eq_zero_iff.mp (hzero _ hmem)

/-- **A burst reaches the register.**  It lies in the byte of its first bit
and the one after. -/
theorem residue_damage_ne_zero (h : Burst sent received) :
    LinearCheck.residue turn 0 (damage sent received) ≠ 0 := by
  obtain ⟨s, hs⟩ := h.confined
  apply LinearCheck.residue_ne_zero_of_window turn
    (fun _ hr => shifts_eq_zero hr) (k := s / 8) _ _ (exists_damage h)
  · intro i x hx
    exact (shape_of_confined hs hx).1
  · intro a b ha hb hab
    have hfirst := (shape_of_confined hs ha).2.1 rfl
    have hsecond := (shape_of_confined hs hb).2.2 rfl
    exact burst_pair_ne_zero (Nat.mod_lt _ (by decide)) hfirst hsecond hab

end Shape

/-- Bytes pass the check of their last one exactly if the register is zero
after them. -/
theorem residue_eq_zero_iff (command sum : UInt8) (data : List UInt8) :
    LinearCheck.residue turn (0 : Octet) (command :: (data ++ [sum])) = 0 ↔
      sum = checksum crc8Poly07 command data :=
  LinearCheck.residue_concat_eq_zero turn (fun _ hr => shifts_eq_zero hr)
    (0 : Octet) (command :: data) sum

/-- **A burst is caught**: bytes that a burst made of a command, its data and
their checksum do not end in the checksum of the others. -/
theorem checksum_ne_of_burst {command : UInt8} {data body : List UInt8}
    (h : Burst (command :: (data ++ [checksum crc8Poly07 command data])) body) :
    ∃ command' data' sum, body = command' :: (data' ++ [sum]) ∧
      sum ≠ checksum crc8Poly07 command' data' := by
  have hlen := h.length
  cases body with
  | nil => cases hlen
  | cons command' rest =>
      rcases List.eq_nil_or_concat rest with rfl | ⟨data', sum, rfl⟩
      · simp at hlen
      · refine ⟨command', data', sum, by rw [List.concat_eq_append], ?_⟩
        rw [List.concat_eq_append] at h hlen
        intro hpass
        have hreceived := (residue_eq_zero_iff command' sum data').mpr hpass
        have hsent := (residue_eq_zero_iff command _ data).mpr rfl
        apply residue_damage_ne_zero h
        have hadd := LinearCheck.residue_add turn (0 : Octet) 0 hlen
        rw [add_zero] at hadd
        calc LinearCheck.residue turn (0 : Octet) (damage _ _)
            = LinearCheck.residue turn (0 : Octet) _ +
                LinearCheck.residue turn (0 : Octet) _ := hadd
          _ = (0 : Octet) + (0 : Octet) :=
              congrArg₂ (· + ·) hsent hreceived
          _ = (0 : Octet) := add_zero _

end DuinoBus.Crc8
