import DuinoBus.Cpp.Packet

/-!
# The device's packet, with lengths of type `size_t`

The lengths of a packet are numbers of `w` bits here, and all sums and
differences of them wrap around.  A pointer that is handed in is what stands
behind it in memory, byte by byte; a pointer into the packet is a place in its
storage.

`toPacket` forgets the width.  Each operation has one lemma: as long as no sum
wraps around, it is the operation on `Cpp.Packet`.  When the sum in the
assertion of `appendData` does, the assertion holds of a packet that has no
room, and the copy runs beyond the storage (`appendData_wraps`).
-/

namespace DuinoBus.Cpp.SizeT

open DuinoBus.Wire
open DuinoBus.Verified

/-- A packet.  `data` is the whole storage, in use or not. -/
structure Packet (w : Nat) where
  command : UInt8
  maxDataLen : BitVec w
  dataLen : BitVec w
  data : List UInt8
  crc : UInt8
  data_length : data.length = maxDataLen.toNat

/-- The first bytes behind a pointer. -/
def bytesAt (data : Nat → UInt8) (numBytes : Nat) : List UInt8 :=
  (List.range numBytes).map data

@[simp] theorem length_bytesAt (data : Nat → UInt8) (numBytes : Nat) :
    (bytesAt data numBytes).length = numBytes := by
  rw [bytesAt, List.length_map, List.length_range]

/-- The bytes of a list are what stands behind a pointer to them. -/
theorem bytesAt_getD (bytes : List UInt8) {n : Nat} (h : n ≤ bytes.length) :
    bytesAt (bytes.getD · 0) n = bytes.take n := by
  apply List.ext_getElem
  · rw [length_bytesAt, List.length_take_of_le h]
  · intro i hi _
    rw [length_bytesAt] at hi
    have hlt : i < bytes.length := Nat.lt_of_lt_of_le hi h
    simp only [bytesAt, List.getElem_map, List.getElem_range,
      List.getElem_take, List.getD_eq_getElem?_getD,
      List.getElem?_eq_getElem hlt, Option.getD_some]

variable {w : Nat}

private theorem toNat_zero : (0 : BitVec w).toNat = 0 := by
  rw [BitVec.ofNat_eq_ofNat, BitVec.toNat_ofNat, Nat.zero_mod]

private theorem toNat_one (h : 1 < 2 ^ w) : (1 : BitVec w).toNat = 1 := by
  rw [BitVec.ofNat_eq_ofNat, BitVec.toNat_ofNat, Nat.mod_eq_of_lt h]

namespace Packet

def setCommand (p : Packet w) (cmd : UInt8) : Packet w :=
  { p with command := cmd }

def getSpaceRemaining (p : Packet w) : BitVec w := p.maxDataLen - p.dataLen

def getWriteData (p : Packet w) (numBytes : BitVec w) :
    BitVec w × Packet w :=
  (p.dataLen, { p with dataLen := p.dataLen + numBytes })

def appendData (p : Packet w) (dataLen : BitVec w) (data : Nat → UInt8) :
    Except Fault (Packet w) :=
  if p.dataLen + dataLen ≤ p.maxDataLen then
    if 0 < dataLen then
      if h : p.dataLen.toNat + dataLen.toNat ≤ p.maxDataLen.toNat then
        .ok { p with
          data := Cpp.Packet.copyInto p.data p.dataLen.toNat
            (bytesAt data dataLen.toNat)
          dataLen := p.dataLen + dataLen
          data_length := by
            rw [Cpp.Packet.length_copyInto (by
              rw [length_bytesAt, p.data_length]
              exact h), p.data_length] }
      else .error .outOfBounds
    else .ok p
  else .error .assertFailed

def setData (p : Packet w) (dataLen : BitVec w) (data : Nat → UInt8) :
    Except Fault (Packet w) :=
  let p := { p with dataLen := 0 }
  if 0 < dataLen then p.appendData dataLen data else .ok p

def appendByte (p : Packet w) (byte : UInt8) : Except Fault (Packet w) :=
  if p.dataLen < p.maxDataLen then
    .ok { p with
      data := p.data.set p.dataLen.toNat byte
      dataLen := p.dataLen + 1
      data_length := by rw [List.length_set, p.data_length] }
  else .error .assertFailed

/-- `append<T>`. -/
def appendAs {T : Type} [Pod T] (p : Packet w) (data : T) :
    Except Fault (Packet w) :=
  p.appendData (BitVec.ofNat w (Pod.size T)) ((Pod.toBytes data).getD · 0)

/-- `append` of a string. -/
def appendStr (p : Packet w) (str : List UInt8) : Except Fault (Packet w) := do
  let strLength := UInt8.ofNat (strnlen str 256 + 1)
  let p ← p.appendAs strLength
  if str.length < strLength.toNat then .error .outOfBounds
  p.appendData (BitVec.ofNat w strLength.toNat) (str.getD · 0)

def calcCrc (crc8 : UInt8 → UInt8 → UInt8) (p : Packet w) :
    Except Fault UInt8 :=
  let expectedCrc := crc8 0 p.command
  if p.dataLen.toNat ≤ p.data.length then
    .ok ((p.data.take p.dataLen.toNat).foldl crc8 expectedCrc)
  else .error .outOfBounds

def calcAndStoreCrc (crc8 : UInt8 → UInt8 → UInt8) (p : Packet w) :
    Except Fault (Packet w) := do
  let crc ← p.calcCrc crc8
  return { p with crc := crc }

/-- Remove the last byte of the packet. -/
def removeByte (p : Packet w) : Packet w :=
  if 0 < p.dataLen then { p with dataLen := p.dataLen - 1 } else p

/-! ## Without a width -/

/-- The packet with its lengths as numbers without a bound. -/
def toPacket (p : Packet w) : Cpp.Packet :=
  ⟨p.command, p.maxDataLen.toNat, p.dataLen.toNat, p.data, p.crc,
    p.data_length⟩

variable {p : Packet w}

/-- The space that remains does not wrap around while the length is within
the storage. -/
theorem toNat_getSpaceRemaining (h : p.dataLen ≤ p.maxDataLen) :
    p.getSpaceRemaining.toNat = p.toPacket.getSpaceRemaining :=
  BitVec.toNat_sub_of_le h

theorem toPacket_getWriteData {numBytes : BitVec w}
    (h : p.dataLen.toNat + numBytes.toNat < 2 ^ w) :
    (p.getWriteData numBytes).2.toPacket =
      (p.toPacket.getWriteData numBytes.toNat).2 := by
  have hsum := BitVec.toNat_add_of_lt h
  simp only [toPacket, getWriteData, Cpp.Packet.getWriteData, hsum]

theorem toPacket_appendData {dataLen : BitVec w} (data : Nat → UInt8)
    (h : p.dataLen.toNat + dataLen.toNat < 2 ^ w) :
    (p.appendData dataLen data).map toPacket =
      p.toPacket.appendData (bytesAt data dataLen.toNat) := by
  have hsum := BitVec.toNat_add_of_lt h
  rw [appendData, Cpp.Packet.appendData]
  simp only [BitVec.le_def, BitVec.lt_def, hsum, length_bytesAt, toNat_zero]
  by_cases hroom : p.dataLen.toNat + dataLen.toNat ≤ p.maxDataLen.toNat
  · rw [if_pos hroom, dif_pos (show p.toPacket.dataLen + dataLen.toNat ≤
      p.toPacket.maxDataLen from hroom)]
    split
    · simp only [Except.map, toPacket, hsum]
    · rfl
  · rw [if_neg hroom, dif_neg (show ¬ p.toPacket.dataLen + dataLen.toNat ≤
      p.toPacket.maxDataLen from hroom)]
    rfl

/-- **When the sum wraps around**, it is less than the length was, so the
assertion holds, and the copy runs beyond the storage. -/
theorem appendData_wraps (hfits : p.dataLen ≤ p.maxDataLen)
    {dataLen : BitVec w} (data : Nat → UInt8)
    (h : 2 ^ w ≤ p.dataLen.toNat + dataLen.toNat) :
    p.appendData dataLen data = .error .outOfBounds := by
  have hlen := p.dataLen.isLt
  have hmax := p.maxDataLen.isLt
  have hadd := dataLen.isLt
  rw [BitVec.le_def] at hfits
  have hsum : (p.dataLen + dataLen).toNat =
      p.dataLen.toNat + dataLen.toNat - 2 ^ w := by
    rw [BitVec.toNat_add, Nat.mod_eq_sub_mod h, Nat.mod_eq_of_lt (by omega)]
  have hasserts : p.dataLen + dataLen ≤ p.maxDataLen := by
    rw [BitVec.le_def, hsum]
    omega
  have hpos : 0 < dataLen := by
    rw [BitVec.lt_def, toNat_zero]
    omega
  rw [appendData, if_pos hasserts, if_pos hpos, dif_neg (by omega)]

theorem toPacket_setData (p : Packet w) (dataLen : BitVec w)
    (data : Nat → UInt8) :
    (p.setData dataLen data).map toPacket =
      p.toPacket.setData (bytesAt data dataLen.toNat) := by
  have hempty : ({ p with dataLen := 0 } : Packet w).toPacket =
      { p.toPacket with dataLen := 0 } := by
    simp only [toPacket, toNat_zero]
  have hlt : ({ p with dataLen := 0 } : Packet w).dataLen.toNat +
      dataLen.toNat < 2 ^ w := by
    show (0 : BitVec w).toNat + _ < _
    rw [toNat_zero, Nat.zero_add]
    exact dataLen.isLt
  have happend := toPacket_appendData data hlt
  rw [hempty] at happend
  rw [setData, Cpp.Packet.setData]
  simp only [BitVec.lt_def, toNat_zero, length_bytesAt]
  split
  · exact happend
  · simp only [Except.map, hempty]

theorem toPacket_appendByte (p : Packet w) (byte : UInt8) :
    (p.appendByte byte).map toPacket = p.toPacket.appendByte byte := by
  rw [appendByte, Cpp.Packet.appendByte]
  by_cases hroom : p.dataLen < p.maxDataLen
  · have hlt : p.dataLen.toNat < p.maxDataLen.toNat := hroom
    have hmax := p.maxDataLen.isLt
    have hone := toNat_one (show 1 < 2 ^ w by omega)
    have hsum : (p.dataLen + 1).toNat = p.dataLen.toNat + 1 := by
      rw [BitVec.toNat_add_of_lt (by rw [hone]; omega), hone]
    rw [if_pos hroom, if_pos (show p.toPacket.dataLen < p.toPacket.maxDataLen
      from hlt)]
    simp only [Except.map, toPacket, hsum]
  · rw [if_neg hroom, if_neg (show ¬ p.toPacket.dataLen < p.toPacket.maxDataLen
      from hroom)]
    rfl

/-- The size of a value is a `size_t`, and its bytes are read from it. -/
theorem toPacket_appendAs {T : Type} [Pod T] (hsize : Pod.size T < 2 ^ w)
    (data : T) (h : p.dataLen.toNat + Pod.size T < 2 ^ w) :
    (p.appendAs data).map toPacket = p.toPacket.appendAs data := by
  have hlen : (BitVec.ofNat w (Pod.size T)).toNat = Pod.size T := by
    rw [BitVec.toNat_ofNat, Nat.mod_eq_of_lt hsize]
  rw [appendAs, toPacket_appendData _ (by rw [hlen]; exact h), hlen,
    bytesAt_getD _ (Nat.le_of_eq (Pod.length_toBytes data).symm),
    ← Pod.length_toBytes data, List.take_length]
  rfl

theorem appendAs_wraps {T : Type} [Pod T] (hfits : p.dataLen ≤ p.maxDataLen)
    (hsize : Pod.size T < 2 ^ w) (data : T)
    (h : 2 ^ w ≤ p.dataLen.toNat + Pod.size T) :
    p.appendAs data = .error .outOfBounds := by
  apply appendData_wraps hfits
  rw [BitVec.toNat_ofNat, Nat.mod_eq_of_lt hsize]
  exact h

section Strings

variable (hw : 8 ≤ w)
include hw

/-- A length byte fits into a `size_t`. -/
private theorem toNat_byte (n : UInt8) :
    (BitVec.ofNat w n.toNat).toNat = n.toNat := by
  have hwidth : 2 ^ 8 ≤ 2 ^ w := Nat.pow_le_pow_right (by decide) hw
  rw [BitVec.toNat_ofNat]
  exact Nat.mod_eq_of_lt (Nat.lt_of_lt_of_le n.toNat_lt hwidth)

private theorem size_byte_lt : Pod.size UInt8 < 2 ^ w :=
  Nat.one_lt_pow (by omega) (by decide)

/-- The length byte has been appended, if that neither stopped nor wrapped
around. -/
private theorem appendAs_byte {n : UInt8} {q : Packet w}
    (h : p.dataLen.toNat + 1 < 2 ^ w) (hok : p.appendAs n = .ok q) :
    p.toPacket.appendAs n = .ok q.toPacket ∧
      p.dataLen.toNat + 1 ≤ p.maxDataLen.toNat ∧
      q.dataLen.toNat = p.dataLen.toNat + 1 ∧ q.maxDataLen = p.maxDataLen := by
  have happend := toPacket_appendAs (size_byte_lt hw) n h
  rw [hok] at happend
  obtain ⟨hroom, hlen, hmax⟩ := Cpp.Packet.lengths_of_appendData happend.symm
  rw [Pod.length_toBytes] at hroom hlen
  exact ⟨happend.symm, hroom, hlen, BitVec.eq_of_toNat_eq hmax⟩

theorem toPacket_appendStr {str : List UInt8}
    (h : p.dataLen.toNat + 1 < 2 ^ w)
    (htext : p.dataLen.toNat + 1 ≤ p.maxDataLen.toNat →
      p.dataLen.toNat + 1 + (UInt8.ofNat (strnlen str 256 + 1)).toNat <
        2 ^ w) :
    (p.appendStr str).map toPacket = p.toPacket.appendStr str := by
  rw [appendStr, Cpp.Packet.appendStr]
  generalize UInt8.ofNat (strnlen str 256 + 1) = n at htext ⊢
  cases hbyte : p.appendAs n with
  | error e =>
      have happend := toPacket_appendAs (size_byte_lt hw) n h
      rw [hbyte] at happend
      simp only [← happend, bind, Except.bind, Except.map]
  | ok q =>
      obtain ⟨happend, hroom, hlen, _⟩ := appendAs_byte hw h hbyte
      have hsum : q.dataLen.toNat + (BitVec.ofNat w n.toNat).toNat < 2 ^ w := by
        rw [toNat_byte hw, hlen]
        exact htext hroom
      have hcopy := toPacket_appendData (str.getD · 0) hsum
      simp only [happend, bind, Except.bind]
      by_cases hmemory : str.length < n.toNat
      · simp only [if_pos hmemory]
        rfl
      · rw [toNat_byte hw, bytesAt_getD str (Nat.not_lt.mp hmemory)] at hcopy
        simp only [if_neg hmemory]
        exact hcopy

/-- Where one of the two sums wraps around, the string runs beyond the
storage. -/
theorem appendStr_wraps (hfits : p.dataLen ≤ p.maxDataLen) {str : List UInt8}
    (h : 2 ^ w ≤ p.dataLen.toNat + 1 ∨
      p.dataLen.toNat + 1 ≤ p.maxDataLen.toNat ∧
        2 ^ w ≤ p.dataLen.toNat + 1 +
          (UInt8.ofNat (strnlen str 256 + 1)).toNat) :
    p.appendStr str = .error .outOfBounds := by
  rw [appendStr]
  generalize UInt8.ofNat (strnlen str 256 + 1) = n at h ⊢
  by_cases hfirst : 2 ^ w ≤ p.dataLen.toNat + 1
  · have hbyte := appendAs_wraps hfits (size_byte_lt hw) n hfirst
    simp only [hbyte, bind, Except.bind]
  · obtain ⟨hroom, hsecond⟩ := h.resolve_left hfirst
    have hlt := Nat.lt_of_not_le hfirst
    have hstored := toPacket_appendAs (size_byte_lt hw) n hlt
    cases hbyte : p.appendAs n with
    | error e =>
        -- there is room for the length byte
        rw [hbyte] at hstored
        obtain ⟨q, hok, _⟩ := (Cpp.Packet.holds_self
          (show p.toPacket.dataLen ≤ p.toPacket.maxDataLen from
            hfits)).appendData (Pod.toBytes n) (by
          rw [← (Cpp.Packet.holds_self (show p.toPacket.dataLen ≤
            p.toPacket.maxDataLen from hfits)).dataLen, Pod.length_toBytes]
          exact hroom)
        cases hstored.trans hok
    | ok q =>
        obtain ⟨_, _, hlen, hmax⟩ := appendAs_byte hw hlt hbyte
        have hfull : q.appendData (BitVec.ofNat w n.toNat) (str.getD · 0) =
            .error .outOfBounds := by
          apply appendData_wraps
          · rw [BitVec.le_def, hlen, hmax]
            exact hroom
          · rw [toNat_byte hw, hlen]
            exact hsecond
        simp only [bind, Except.bind, hfull]
        split
        · rfl
        · rfl

end Strings

theorem toPacket_removeByte (p : Packet w) :
    p.removeByte.toPacket = p.toPacket.removeByte := by
  have hlt := p.dataLen.isLt
  rw [removeByte, Cpp.Packet.removeByte]
  simp only [BitVec.lt_def, toNat_zero]
  by_cases hpos : 0 < p.dataLen.toNat
  · have hone := toNat_one (show 1 < 2 ^ w by omega)
    have hsub : (p.dataLen - 1).toNat = p.dataLen.toNat - 1 := by
      rw [BitVec.toNat_sub_of_le (by rw [BitVec.le_def, hone]; exact hpos),
        hone]
    rw [if_pos hpos, if_pos (show 0 < p.toPacket.dataLen from hpos)]
    simp only [toPacket, hsub]
  · rw [if_neg hpos, if_neg (show ¬ 0 < p.toPacket.dataLen from hpos)]

theorem toPacket_calcAndStoreCrc (crc8 : UInt8 → UInt8 → UInt8)
    (p : Packet w) :
    (p.calcAndStoreCrc crc8).map toPacket =
      p.toPacket.calcAndStoreCrc crc8 := by
  rw [calcAndStoreCrc, Cpp.Packet.calcAndStoreCrc, calcCrc,
    Cpp.Packet.calcCrc, Cpp.Packet.readData]
  by_cases hfits : p.dataLen.toNat ≤ p.data.length
  · rw [if_pos hfits, if_pos (show p.toPacket.dataLen ≤ p.toPacket.data.length
      from hfits)]
    rfl
  · rw [if_neg hfits, if_neg (show ¬ p.toPacket.dataLen ≤
      p.toPacket.data.length from hfits)]
    rfl

end Packet

end DuinoBus.Cpp.SizeT
