import DuinoBus.Cpp.Packet
import Mathlib.Data.List.TakeWhile

/-!
# The device's packer

`Packer` appends values to the data of a packet.  A value that the packet has
no room for is refused.  A string is refused in two steps: its length byte may
have been packed by then.

A C string is given by the memory from its first character on.
-/

namespace DuinoBus.Cpp

open DuinoBus.Wire
open DuinoBus.Verified

/-- A packer, with the packet it points to. -/
structure Packer where
  packet : Packet
  deriving DecidableEq

namespace Packer

/-- `pack<T>`. -/
def pack {T : Type} [Pod T] (p : Packer) (data : T) :
    Except Fault (Bool × Packer) :=
  if p.packet.getSpaceRemaining < Pod.size T then .ok (false, p)
  else do
    let packet ← p.packet.appendData (Pod.toBytes data)
    return (true, ⟨packet⟩)

/-- An 8-bit length, the string, and a terminating null. -/
def packStr (p : Packer) (str : List UInt8) : Except Fault (Bool × Packer) := do
  let strLength := UInt8.ofNat (strnlen str 256 + 1)
  let (done, p) ← p.pack strLength
  if !done then return (false, p)
  if p.packet.getSpaceRemaining < strLength.toNat then return (false, p)
  if str.length < strLength.toNat then .error .outOfBounds
  let packet ← p.packet.appendData (str.take strLength.toNat)
  return (true, ⟨packet⟩)

/-! ## What is packed -/

/-- A call that packs some bytes: it succeeds exactly if there is room for
them, and then appends them. -/
def Packs (capacity : Nat) (cmd : UInt8) (bs bytes : List UInt8)
    (r : Except Fault (Bool × Packer)) : Prop :=
  ∃ done q, r = .ok (done, q) ∧
    (done = true ↔ bs.length + bytes.length ≤ capacity) ∧
    (done = true → q.packet.Holds capacity cmd (bs ++ bytes))

section Packing

variable {p : Packer} {capacity : Nat} {cmd : UInt8} {bs : List UInt8}

theorem pack_full {T : Type} [Pod T] (h : p.packet.Holds capacity cmd bs)
    (hfull : capacity < bs.length + Pod.size T) (data : T) :
    p.pack data = .ok (false, p) := by
  have hfits := h.length_le
  rw [Packer.pack, h.getSpaceRemaining, if_pos (by omega)]

theorem pack_room {T : Type} [Pod T] (h : p.packet.Holds capacity cmd bs)
    (data : T) (hroom : bs.length + Pod.size T ≤ capacity) :
    ∃ q : Packer, p.pack data = .ok (true, q) ∧
      q.packet.Holds capacity cmd (bs ++ Pod.toBytes data) := by
  obtain ⟨q, happend, hq⟩ := h.appendData (Pod.toBytes data)
    (by rw [Pod.length_toBytes]; exact hroom)
  refine ⟨⟨q⟩, ?_, hq⟩
  rw [Packer.pack, h.getSpaceRemaining, if_neg (by omega), happend]
  rfl

theorem packs_pack {T : Type} [Pod T] (h : p.packet.Holds capacity cmd bs)
    (data : T) : Packs capacity cmd bs (Pod.toBytes data) (p.pack data) := by
  rw [Packs, Pod.length_toBytes]
  by_cases hroom : bs.length + Pod.size T ≤ capacity
  · obtain ⟨q, hpack, hq⟩ := pack_room h data hroom
    exact ⟨true, q, hpack, ⟨fun _ => hroom, fun _ => rfl⟩, fun _ => hq⟩
  · refine ⟨false, p, pack_full h (Nat.lt_of_not_le hroom) data, ?_, ?_⟩
    · exact ⟨(fun hdone => by cases hdone), fun h => absurd h hroom⟩
    · intro hdone
      cases hdone

/-! ## Strings -/

theorem ne_null_of_notMem {s : List UInt8} (hnull : 0 ∉ s) :
    ∀ ch ∈ s, decide (ch ≠ 0) = true := by
  intro ch hch
  apply decide_eq_true
  intro hzero
  rw [hzero] at hch
  exact hnull hch

/-- The characters that are counted are those of the string, up to the
limit. -/
theorem strnlen_eq_min {s : List UInt8} (hnull : 0 ∉ s) (maxlen : Nat)
    (rest : List UInt8) :
    strnlen (s ++ 0 :: rest) maxlen = min s.length maxlen := by
  have hpos := ne_null_of_notMem hnull
  by_cases hlen : s.length < maxlen
  · obtain ⟨k, hk⟩ : ∃ k, maxlen - s.length = k + 1 :=
      ⟨maxlen - s.length - 1, by omega⟩
    rw [strnlen, List.take_append, List.take_of_length_le (by omega), hk,
      List.take_succ_cons, List.takeWhile_append_of_pos hpos,
      List.takeWhile_cons_of_neg (by decide), List.append_nil,
      Nat.min_eq_left (Nat.le_of_lt hlen)]
  · have hlong := Nat.not_lt.mp hlen
    have hall : ∀ ch ∈ s.take maxlen, decide (ch ≠ 0) = true :=
      fun ch hch => hpos ch (List.mem_of_mem_take hch)
    rw [strnlen, List.take_append_of_le_length hlong,
      List.takeWhile_eq_self_iff.mpr hall, List.length_take, Nat.min_comm]

theorem strnlen_eq {s : List UInt8} (hnull : 0 ∉ s) {maxlen : Nat}
    (hlen : s.length < maxlen) (rest : List UInt8) :
    strnlen (s ++ 0 :: rest) maxlen = s.length := by
  rw [strnlen_eq_min hnull, Nat.min_eq_left (Nat.le_of_lt hlen)]

/-- The length byte of a string. -/
def lengthByte (str : List UInt8) : UInt8 := UInt8.ofNat (strnlen str 256 + 1)

/-- Without space, a string is refused. -/
theorem packStr_full (h : p.packet.Holds capacity cmd bs)
    (hfull : bs.length = capacity) (str : List UInt8) :
    p.packStr str = .ok (false, p) := by
  have hlength : p.pack (lengthByte str) = .ok (false, p) :=
    pack_full h (hfull ▸ Nat.lt_succ_self _) _
  rw [lengthByte] at hlength
  simp only [packStr, hlength, bind, Except.bind]
  rfl

/-- Packing the length byte of a string. -/
private theorem pack_lengthByte (h : p.packet.Holds capacity cmd bs)
    (hspace : bs.length < capacity) (str : List UInt8) :
    ∃ q : Packer, p.pack (lengthByte str) = .ok (true, q) ∧
      q.packet.Holds capacity cmd (bs ++ [lengthByte str]) := by
  have hroom := pack_room h (lengthByte str) hspace
  rw [toBytes_byte] at hroom
  exact hroom

/-- With space for the length byte but not for the text, a string is refused
when its length byte has been packed. -/
theorem packStr_partial (h : p.packet.Holds capacity cmd bs)
    (str : List UInt8) (hspace : bs.length < capacity)
    (hshort : capacity < bs.length + 1 + (lengthByte str).toNat) :
    ∃ q : Packer, p.packStr str = .ok (false, q) ∧
      q.packet.Holds capacity cmd (bs ++ [lengthByte str]) := by
  obtain ⟨q, hpack, hq⟩ := pack_lengthByte h hspace str
  have hspace' := hq.getSpaceRemaining
  rw [List.length_append, List.length_singleton] at hspace'
  have hless : q.packet.getSpaceRemaining < (lengthByte str).toNat := by omega
  rw [lengthByte] at hpack hless
  refine ⟨q, ?_, hq⟩
  simp only [packStr, hpack, bind, Except.bind, if_pos hless]
  rfl

/-- With space for as much as the length byte says, so much is packed. -/
theorem packStr_room (h : p.packet.Holds capacity cmd bs) (str : List UInt8)
    (hroom : bs.length + 1 + (lengthByte str).toNat ≤ capacity)
    (hmemory : (lengthByte str).toNat ≤ str.length) :
    ∃ q : Packer, p.packStr str = .ok (true, q) ∧
      q.packet.Holds capacity cmd
        (bs ++ lengthByte str :: str.take (lengthByte str).toNat) := by
  obtain ⟨q, hpack, hq⟩ := pack_lengthByte h (by omega) str
  have hspace := hq.getSpaceRemaining
  rw [List.length_append, List.length_singleton] at hspace
  obtain ⟨r, happend, hr⟩ := hq.appendData
    (str.take (lengthByte str).toNat) (by
      rw [List.length_append, List.length_singleton,
        List.length_take_of_le hmemory]
      exact hroom)
  rw [List.append_assoc, List.singleton_append] at hr
  have hnotless : ¬ q.packet.getSpaceRemaining < (lengthByte str).toNat := by
    omega
  have hreadable : ¬ str.length < (lengthByte str).toNat := by omega
  rw [lengthByte] at hpack hnotless hreadable happend
  refine ⟨⟨r⟩, ?_, hr⟩
  simp only [packStr, hpack, bind, Except.bind, if_neg hnotless,
    if_neg hreadable, happend]
  rfl

/-- **Packing a string** of at most 254 characters. -/
theorem packs_packStr (h : p.packet.Holds capacity cmd bs) {s : List UInt8}
    (hnull : 0 ∉ s) (hlen : s.length ≤ 254) (rest : List UInt8) :
    Packs capacity cmd bs (UInt8.ofNat (s.length + 1) :: (s ++ [0]))
      (p.packStr (s ++ 0 :: rest)) := by
  have hbyte : lengthByte (s ++ 0 :: rest) = UInt8.ofNat (s.length + 1) := by
    rw [lengthByte, strnlen_eq hnull (by omega) rest]
  have hcount : (lengthByte (s ++ 0 :: rest)).toNat = s.length + 1 := by
    rw [hbyte]
    exact UInt8.toNat_ofNat_of_lt' (show s.length + 1 < 256 by omega)
  have hbytes : (s ++ 0 :: rest).take (s.length + 1) = s ++ [0] := by
    rw [List.append_cons, List.take_left' (by simp)]
  have hfits := h.length_le
  rw [Packs, List.length_cons, List.length_append, List.length_singleton]
  by_cases hroom : bs.length + (s.length + 1 + 1) ≤ capacity
  · obtain ⟨q, hpack, hq⟩ := packStr_room h (s ++ 0 :: rest)
      (by omega) (by rw [hcount, List.length_append, List.length_cons]; omega)
    rw [hcount, hbytes, hbyte] at hq
    exact ⟨true, q, hpack, ⟨fun _ => hroom, fun _ => rfl⟩, fun _ => hq⟩
  · have hrefused : ∃ q, p.packStr (s ++ 0 :: rest) = .ok (false, q) := by
      by_cases hfull : bs.length = capacity
      · exact ⟨p, packStr_full h hfull _⟩
      · obtain ⟨q, hpack, _⟩ := packStr_partial h (s ++ 0 :: rest)
          (by omega) (by omega)
        exact ⟨q, hpack⟩
    obtain ⟨q, hpack⟩ := hrefused
    refine ⟨false, q, hpack, ?_, ?_⟩
    · exact ⟨(fun hdone => by cases hdone), fun h => absurd h hroom⟩
    · intro hdone
      cases hdone

end Packing

end Packer

end DuinoBus.Cpp
