import Mathlib.Algebra.BigOperators.Group.List.Basic
import DuinoBus.Burst

/-!
# Bit errors anywhere in a packet

The errors here are in the command, the data or the CRC of a packet, before
they are escaped and framed, and a new decoder with room receives the frame.
An error on the line can also make or destroy an `END` or an `ESC`; what holds
then is another matter.

The register after some damage is the sum of what each damaged bit leaves
there, its syndrome: a one, shifted once for every bit that follows.  So which
errors the CRC catches is a question about the bits alone.

A shift keeps the parity of the register, so every odd number of errors is
caught (`odd_caught`); and it comes back to one after 127 shifts and no
sooner, so two errors are caught unless their distance is a multiple of 127
(`two_caught_iff`).
-/

namespace DuinoBus.BitErrors

open DuinoBus.Wire
open DuinoBus.Verified
open DuinoBus.Crc8
open DuinoBus.Burst (enclosed enclosed_eq)

instance : DecidableEq Octet := inferInstanceAs (DecidableEq UInt8)

/-- A byte as an octet. -/
def octet (x : UInt8) : Octet := x

/-- The octet with its last bit set. -/
def one : Octet := octet 1

/-! ## Shifts -/

theorem shifts_add (m n : Nat) (c : UInt8) :
    shifts (m + n) c = shifts n (shifts m c) := by
  induction m generalizing c with
  | zero => rw [Nat.zero_add]; rfl
  | succ m ih =>
      rw [Nat.add_right_comm]
      exact ih (shift c)

/-- A number of shifts, as an additive map. -/
def shiftsHom (n : Nat) : Octet →+ Octet where
  toFun := shifts n
  map_zero' := by
    induction n with
    | zero => rfl
    | succ n ih => exact ih
  map_add' x y := shifts_xor n x y

theorem iterate_turn (n : Nat) (x : Octet) :
    turn^[n] x = shiftsHom (8 * n) x := by
  induction n generalizing x with
  | zero => rfl
  | succ n ih =>
      have hadd := shifts_add 8 (8 * n) x
      have hcount : 8 + 8 * n = 8 * (n + 1) := Nat.add_comm 8 (8 * n)
      rw [hcount] at hadd
      rw [Function.iterate_succ_apply, ih]
      exact hadd.symm

/-! ## Syndromes -/

/-- The bits in which the received bytes differ from the sent ones, counted
from the most significant bit of the first byte on. -/
def errors (sent received : List UInt8) : List Nat :=
  (List.range (8 * sent.length)).filter fun i =>
    bitAt sent i != bitAt received i

/-- What an error in bit `i` of `n` bytes leaves in the register. -/
def syndrome (n i : Nat) : Octet := shiftsHom (8 * n + 7 - i) one

/-- The bits of a byte that are set, from the most significant on. -/
def bitsOf (x : UInt8) : List Nat :=
  (List.range 8).filter fun i => x.toNat.testBit (7 - i)

/-- A byte is the sum of its bits. -/
theorem sum_bitsOf (x : UInt8) :
    ((bitsOf x).map fun i => shiftsHom (7 - i) one).sum = octet x := by
  have hall : ∀ n < 256, ((bitsOf (UInt8.ofNat n)).map fun i =>
      shiftsHom (7 - i) one).sum = octet (UInt8.ofNat n) := by decide +kernel
  have hx := hall x.toNat x.toNat_lt
  rwa [UInt8.ofNat_toNat] at hx

/-- Shifted, it is the sum of the syndromes of its bits. -/
theorem sum_syndromes (n : Nat) (x : UInt8) :
    ((bitsOf x).map (syndrome (n + 1))).sum =
      shiftsHom (8 * (n + 1)) (octet x) := by
  rw [← sum_bitsOf x, map_list_sum, List.map_map]
  congr 1
  apply List.map_congr_left
  intro i hi
  have hlt : i < 8 := List.mem_range.mp (List.mem_filter.mp hi).1
  have hadd := shifts_add (7 - i) (8 * (n + 1)) 1
  have hcount : 7 - i + 8 * (n + 1) = 8 * (n + 1) + 7 - i := by omega
  rw [hcount] at hadd
  exact hadd

theorem bitAt_cons_low (b : UInt8) (bytes : List UInt8) {i : Nat} (h : i < 8) :
    bitAt (b :: bytes) i = b.toNat.testBit (7 - i) := by
  have hdiv : i / 8 = 0 := by omega
  have hmod : i % 8 = i := by omega
  rw [bitAt, hdiv, hmod]
  rfl

theorem bitAt_cons_high (b : UInt8) (bytes : List UInt8) (i : Nat) :
    bitAt (b :: bytes) (8 + i) = bitAt bytes i := by
  have hdiv : (8 + i) / 8 = i / 8 + 1 := by omega
  have hmod : (8 + i) % 8 = i % 8 := by omega
  rw [bitAt, bitAt, hdiv, hmod, List.getD_cons_succ]

/-- The errors in the first byte, and those in the others. -/
theorem errors_cons (a b : UInt8) (sent received : List UInt8) :
    errors (a :: sent) (b :: received) =
      bitsOf (a ^^^ b) ++ (errors sent received).map (8 + ·) := by
  have hlength : 8 * (a :: sent).length = 8 + 8 * sent.length := by
    rw [List.length_cons]
    omega
  rw [errors, hlength, List.range_add, List.filter_append]
  congr 1
  · apply List.filter_congr
    intro i hi
    have hlt := List.mem_range.mp hi
    rw [bitAt_cons_low a sent hlt, bitAt_cons_low b received hlt,
      UInt8.toNat_xor, Nat.testBit_xor]
  · rw [List.filter_map, errors]
    apply congrArg
    apply List.filter_congr
    intro i _
    show (bitAt (a :: sent) (8 + i) != bitAt (b :: received) (8 + i)) = _
    rw [bitAt_cons_high, bitAt_cons_high]

/-- **The register after some damage** is the sum of the syndromes of the
errors. -/
theorem residue_damage {sent received : List UInt8}
    (hlength : sent.length = received.length) :
    LinearCheck.residue turn (0 : Octet) (damage sent received) =
      ((errors sent received).map (syndrome sent.length)).sum := by
  induction sent generalizing received with
  | nil => rfl
  | cons a sent ih =>
      cases received with
      | nil => cases hlength
      | cons b received =>
          have hrest := ih (Nat.succ.inj hlength)
          have hdamaged : (damage sent received).length = sent.length := by
            rw [damage, List.length_zipWith, ← Nat.succ.inj hlength,
              Nat.min_self]
          have hturned : ∀ r n, (damage sent received).length = n →
              LinearCheck.residue turn r (damage sent received) =
                turn^[n] r +
                  LinearCheck.residue turn (0 : Octet)
                    (damage sent received) := by
            rintro r n rfl
            exact LinearCheck.residue_eq_add turn r (damage sent received)
          have hlater : ((errors sent received).map (8 + ·)).map
              (syndrome (sent.length + 1)) =
              (errors sent received).map (syndrome sent.length) := by
            rw [List.map_map]
            apply List.map_congr_left
            intro i _
            show shiftsHom (8 * (sent.length + 1) + 7 - (8 + i)) one =
              shiftsHom (8 * sent.length + 7 - i) one
            congr 2
            omega
          calc LinearCheck.residue turn (0 : Octet)
                (damage (a :: sent) (b :: received))
              = LinearCheck.residue turn (turn (0 + octet (a ^^^ b)))
                  (damage sent received) := rfl
            _ = turn^[sent.length] (turn (octet (a ^^^ b))) +
                  LinearCheck.residue turn (0 : Octet)
                    (damage sent received) := by
                rw [zero_add]
                exact hturned _ _ hdamaged
            _ = ((bitsOf (a ^^^ b)).map (syndrome (sent.length + 1))).sum +
                  ((errors sent received).map (syndrome sent.length)).sum := by
                rw [hrest, ← Function.iterate_succ_apply, iterate_turn,
                  sum_syndromes]
            _ = ((errors (a :: sent) (b :: received)).map
                  (syndrome (sent.length + 1))).sum := by
                rw [errors_cons, List.map_append, List.sum_append, hlater]

/-! ## Parity -/

/-- The sum of a one for each bit that is set. -/
def parity : Octet →+ Octet where
  toFun x := ((List.range 8).map fun i =>
    if (UInt8.toNat x).testBit i then one else 0).sum
  map_zero' := by decide
  map_add' x y := by
    rw [← List.sum_map_add]
    congr 1
    apply List.map_congr_left
    intro i _
    have hbit : (UInt8.toNat (x + y : Octet)).testBit i =
        ((UInt8.toNat x).testBit i ^^ (UInt8.toNat y).testBit i) := by
      have hxor : UInt8.toNat (x + y : Octet) =
          UInt8.toNat x ^^^ UInt8.toNat y := UInt8.toNat_xor x y
      rw [hxor, Nat.testBit_xor]
    rw [hbit]
    cases (UInt8.toNat x).testBit i <;>
      cases (UInt8.toNat y).testBit i <;> decide

/-- A shift takes off one bit and puts three back, or moves them all. -/
theorem parity_shift (x : UInt8) :
    parity (octet (shift x)) = parity (octet x) := by
  have hall : ∀ n < 256, parity (octet (shift (UInt8.ofNat n))) =
      parity (octet (UInt8.ofNat n)) := by decide +kernel
  have hx := hall x.toNat x.toNat_lt
  rwa [UInt8.ofNat_toNat] at hx

theorem parity_shiftsHom (n : Nat) (x : UInt8) :
    parity (shiftsHom n (octet x)) = parity (octet x) := by
  induction n generalizing x with
  | zero => rfl
  | succ n ih => exact (ih (shift x)).trans (parity_shift x)

/-- The parity of the register is that of the number of errors. -/
theorem parity_syndromes (n : Nat) (is : List Nat) :
    parity ((is.map (syndrome n)).sum) =
      if is.length % 2 = 1 then one else 0 := by
  induction is with
  | nil => exact map_zero parity
  | cons i is ih =>
      have hone : parity (syndrome n i) = one :=
        (parity_shiftsHom _ 1).trans (by decide)
      rw [List.map_cons, List.sum_cons, map_add, ih, hone, List.length_cons]
      rcases Nat.mod_two_eq_zero_or_one is.length with heven | hodd
      · rw [if_neg (by omega), if_pos (by omega), add_zero]
      · rw [if_pos hodd, if_neg (by omega)]
        decide

/-! ## The order of a shift -/

theorem shifts_injective {n : Nat} {x y : UInt8}
    (h : shifts n x = shifts n y) : x = y := by
  have hshift : ∀ m < 256, shift (UInt8.ofNat m) = 0 → m = 0 := by
    decide +kernel
  have hzero : ∀ n z, shifts n z = 0 → z = 0 := by
    intro n
    induction n with
    | zero => exact fun z hz => hz
    | succ n ih =>
        intro z hz
        have hone := ih (shift z) hz
        have hnat := hshift z.toNat z.toNat_lt
          (by rw [UInt8.ofNat_toNat]; exact hone)
        exact UInt8.toNat_inj.mp hnat
  apply UInt8.xor_eq_zero_iff.mp
  apply hzero n
  rw [shifts_xor, h, UInt8.xor_self]

/-- **After 127 shifts** the register is what it was. -/
theorem shifts_127 (q : Nat) : shifts (127 * q) 1 = 1 := by
  induction q with
  | zero => rfl
  | succ q ih =>
      have hturn : shifts 127 1 = 1 := by decide +kernel
      rw [Nat.mul_succ, shifts_add, ih, hturn]

theorem shifts_eq_one_iff (m : Nat) : shifts m 1 = 1 ↔ m % 127 = 0 := by
  have hless : ∀ r < 127, shifts r 1 = 1 → r = 0 := by decide +kernel
  have hsplit : shifts m 1 = shifts (m % 127) 1 := by
    have hadd := shifts_add (127 * (m / 127)) (m % 127) 1
    rw [Nat.div_add_mod, shifts_127] at hadd
    exact hadd
  rw [hsplit]
  constructor
  · exact hless (m % 127) (Nat.mod_lt m (by decide))
  · intro hzero
    rw [hzero]
    rfl

/-- Two errors cancel exactly when their distance is a multiple of 127. -/
theorem syndrome_pair_iff {n i j : Nat} (hij : i < j) (hj : j < 8 * n) :
    ([i, j].map (syndrome n)).sum = 0 ↔ (j - i) % 127 = 0 := by
  have hcount : 8 * n + 7 - i = j - i + (8 * n + 7 - j) := by omega
  have hshifts : shifts (8 * n + 7 - i) 1 =
      shifts (8 * n + 7 - j) (shifts (j - i) 1) := by
    rw [hcount, shifts_add]
  have hsum : ([i, j].map (syndrome n)).sum =
      octet (shifts (8 * n + 7 - j) (shifts (j - i) 1) ^^^
        shifts (8 * n + 7 - j) 1) := by
    rw [← hshifts]
    exact congrArg (syndrome n i + ·) (add_zero (syndrome n j))
  rw [hsum, ← shifts_eq_one_iff]
  constructor
  · intro hzero
    exact shifts_injective (UInt8.xor_eq_zero_iff.mp hzero)
  · intro hone
    rw [hone, UInt8.xor_self]
    rfl

/-! ## What the decoder answers -/

/-- A command, its data and their CRC. -/
def sealed (command : UInt8) (data : List UInt8) : List UInt8 :=
  command :: (data ++ [checksum crc8Poly07 command data])

/-- The packet that some bytes are taken for: a command, data and a CRC. -/
def carried (body : List UInt8) : Report :=
  .packet (body.headD 0) body.tail.dropLast (body.getLastD 0)

/-- Damaged bytes pass if the damage leaves nothing in the register. -/
private theorem residue_received {command : UInt8} {data body : List UInt8}
    (hlength : (sealed command data).length = body.length) :
    LinearCheck.residue turn (0 : Octet) body = 0 ↔
      ((errors (sealed command data) body).map
        (syndrome body.length)).sum = 0 := by
  have hsent : LinearCheck.residue turn (0 : Octet) (sealed command data) = 0 :=
    (residue_eq_zero_iff command _ data).mpr rfl
  have hadd := LinearCheck.residue_add turn (0 : Octet) 0 hlength
  have hdamage := residue_damage hlength
  rw [add_zero] at hadd
  rw [← hlength, ← hdamage]
  have hsum : LinearCheck.residue turn (0 : Octet)
      (damage (sealed command data) body) =
      LinearCheck.residue turn (0 : Octet) body :=
    hadd.trans ((congrArg (· + _) hsent).trans (zero_add _))
  rw [hsum]

/-- The decoder takes a framed body for a packet if it passes, and answers
`CRC` at its closing `END` if not. -/
private theorem decodeAll_enclosed (packet : Cpp.Packet) {command : UInt8}
    {data body : List UInt8}
    (hlength : (sealed command data).length = body.length)
    (hroom : body.length ≤ packet.maxDataLen + 1) :
    ∃ d, (Cpp.PacketDecoder.new packet).decodeAll crc8Poly07
        (enclosed body) =
      .ok (List.replicate ((enclosed body).length - 1) (.code .notDone) ++
        [if ((errors (sealed command data) body).map
            (syndrome body.length)).sum = 0 then carried body
          else .code .crc], d) := by
  have hpass := residue_received hlength
  cases body with
  | nil => cases hlength
  | cons command' rest =>
      rcases List.eq_nil_or_concat rest with rfl | ⟨data', sum, rfl⟩
      · simp [sealed] at hlength
      · rw [List.concat_eq_append] at hpass hroom ⊢
        have hroom' : data'.length + 1 ≤ packet.maxDataLen := by
          rw [List.length_cons, List.length_append, List.length_singleton]
            at hroom
          omega
        have hcarried : carried (command' :: (data' ++ [sum])) =
            .packet command' data' sum := by
          rw [carried, List.tail_cons, List.dropLast_concat]
          congr 1
          rw [← List.cons_append, List.getLastD_concat]
        obtain ⟨d, hdecode, _⟩ := Cpp.PacketDecoder.decodeAll_eq crc8Poly07
          packet.maxDataLen (Cpp.PacketDecoder.tracks_new packet)
          (enclosed (command' :: (data' ++ [sum])))
        have hclose : report ((deviceReceiver crc8Poly07
            packet.maxDataLen).close command' (data' ++ [sum])).2 =
            if ((errors (sealed command data)
              (command' :: (data' ++ [sum]))).map
                (syndrome (command' :: (data' ++ [sum])).length)).sum = 0
            then carried (command' :: (data' ++ [sum]))
            else .code .crc := by
          rw [Receiver.close_concat, deviceReceiver_check, hcarried]
          by_cases hsum : sum = checksum crc8Poly07 command' data'
          · rw [if_pos hsum,
              if_pos (hpass.mp ((residue_eq_zero_iff _ _ _).mpr hsum))]
            rfl
          · rw [if_neg hsum, if_neg fun h =>
              hsum ((residue_eq_zero_iff _ _ _).mp (hpass.mpr h))]
            rfl
        have hread := ((deviceReceiver crc8Poly07
          packet.maxDataLen).run_enclose (.inl rfl) command' (data' ++ [sum])
          (by rw [List.length_append, List.length_singleton]; exact hroom')).2
        refine ⟨d, ?_⟩
        rw [hdecode, enclosed_eq]
        show Except.ok (((deviceReceiver crc8Poly07
          packet.maxDataLen).machine.outputs _ ((deviceReceiver crc8Poly07
            packet.maxDataLen).enclose _)).map report, d) = _
        rw [hread, List.map_append, List.map_replicate, List.map_singleton,
          hclose]
        rfl

/-- **An odd number of errors is caught**, wherever they are: in the command,
in the data or in the CRC. -/
theorem odd_caught (packet : Cpp.Packet) (command : UInt8)
    (data body : List UInt8)
    (hlength : (sealed command data).length = body.length)
    (hroom : body.length ≤ packet.maxDataLen + 1)
    (hodd : (errors (sealed command data) body).length % 2 = 1) :
    ∃ d, (Cpp.PacketDecoder.new packet).decodeAll crc8Poly07
        (enclosed body) =
      .ok (List.replicate ((enclosed body).length - 1) (.code .notDone) ++
        [.code .crc], d) := by
  obtain ⟨d, hdecode⟩ := decodeAll_enclosed packet hlength hroom
  have hcaught : ((errors (sealed command data) body).map
      (syndrome body.length)).sum ≠ 0 := by
    intro hzero
    have hparity := parity_syndromes body.length
      (errors (sealed command data) body)
    rw [hzero, map_zero, if_pos hodd] at hparity
    exact absurd hparity (by decide)
  rw [if_neg hcaught] at hdecode
  exact ⟨d, hdecode⟩

/-- Three errors, in the command and in the CRC. -/
theorem odd_caught_three :
    ∃ d, (Cpp.PacketDecoder.new (.new [0, 0] 0)).decodeAll crc8Poly07
        (enclosed [0x80, 0x06]) =
      .ok (List.replicate ((enclosed [0x80, 0x06]).length - 1)
        (.code .notDone) ++ [.code .crc], d) :=
  odd_caught (.new [0, 0] 0) 0x01 [] [0x80, 0x06] rfl (by decide)
    (by decide +kernel)

/-- **Two errors are caught unless their distance is a multiple of 127**; the
decoder then accepts what they made of the packet. -/
theorem two_caught_iff (packet : Cpp.Packet) (command : UInt8)
    (data body : List UInt8)
    (hlength : (sealed command data).length = body.length)
    (hroom : body.length ≤ packet.maxDataLen + 1) {i j : Nat}
    (htwo : errors (sealed command data) body = [i, j]) :
    ∃ d, (Cpp.PacketDecoder.new packet).decodeAll crc8Poly07
        (enclosed body) =
      .ok (List.replicate ((enclosed body).length - 1) (.code .notDone) ++
        [if (j - i) % 127 = 0 then carried body else .code .crc], d) := by
  obtain ⟨d, hdecode⟩ := decodeAll_enclosed packet hlength hroom
  have hsorted : (errors (sealed command data) body).Pairwise (· < ·) :=
    List.pairwise_lt_range.filter _
  have hlt : j < 8 * body.length := by
    have hmem : j ∈ errors (sealed command data) body := by
      rw [htwo]
      exact List.mem_cons_of_mem i (List.mem_singleton_self j)
    rw [← hlength]
    exact List.mem_range.mp (List.mem_filter.mp hmem).1
  rw [htwo] at hsorted hdecode
  have hij : i < j :=
    (List.pairwise_cons.mp hsorted).1 j (List.mem_singleton_self j)
  have hpair := syndrome_pair_iff hij hlt
  simp only [hpair] at hdecode
  exact ⟨d, hdecode⟩

/-- Errors in the first bit of 16 bytes and in the last are not caught. -/
theorem two_caught_iff_missed :
    ∃ d, (Cpp.PacketDecoder.new (.new (List.replicate 15 0) 0)).decodeAll
        crc8Poly07 (enclosed (0x81 :: (List.replicate 14 0 ++ [0xB4]))) =
      .ok (List.replicate ((enclosed
        (0x81 :: (List.replicate 14 0 ++ [0xB4]))).length - 1)
          (.code .notDone) ++
        [if (127 - 0) % 127 = 0
          then carried (0x81 :: (List.replicate 14 0 ++ [0xB4]))
          else .code .crc], d) :=
  two_caught_iff (.new (List.replicate 15 0) 0) 0x01 (List.replicate 14 0) _
    (by decide) (by decide) (by decide +kernel)

end DuinoBus.BitErrors
