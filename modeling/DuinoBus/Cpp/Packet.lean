import DuinoBus.Wire
import DuinoBus.Verified.LittleEndian

/-!
# The device's packet

`Packet` keeps its data in storage that the caller owns: a fixed number of
bytes of which the first `dataLen` are in use.  Writing and reading bytes goes
through a length check here, an `assert` where the source has one and the
bounds of the storage otherwise, and a failed check is a `Fault`.

Lengths are numbers without a bound here.  In `DuinoBus.Cpp.SizeT` they are of
type `size_t`, and the operations on them those of this packet as long as no
sum wraps around.

`Packet.Holds` is what the rest of the device relies on.  Each operation has
one lemma that says what the packet holds afterwards.

The texts that `dump` logs are left out; that it reads the data is not.
-/

namespace DuinoBus.Cpp

open DuinoBus.Wire
open DuinoBus.Verified

/-- The characters up to the first null, and no more than `maxlen`. -/
def strnlen (str : List UInt8) (maxlen : Nat) : Nat :=
  ((str.take maxlen).takeWhile (· ≠ 0)).length

/-- A packet.  `data` is the whole storage, in use or not. -/
structure Packet where
  command : UInt8
  maxDataLen : Nat
  dataLen : Nat
  data : List UInt8
  crc : UInt8
  data_length : data.length = maxDataLen
  deriving DecidableEq

namespace Packet

/-- A packet over some storage, whose contents nobody initialised. -/
def new (data : List UInt8) (crc : UInt8) : Packet :=
  ⟨0, data.length, 0, data, crc, rfl⟩

def setCommand (p : Packet) (cmd : UInt8) : Packet := { p with command := cmd }

/-- `memcpy` into the storage, at `idx`. -/
def copyInto (data : List UInt8) (idx : Nat) (bytes : List UInt8) :
    List UInt8 :=
  data.take idx ++ bytes ++ data.drop (idx + bytes.length)

theorem length_copyInto {data bytes : List UInt8} {idx : Nat}
    (h : idx + bytes.length ≤ data.length) :
    (copyInto data idx bytes).length = data.length := by
  simp only [copyInto, List.length_append, List.length_take, List.length_drop]
  omega

def appendData (p : Packet) (bytes : List UInt8) : Except Fault Packet :=
  if h : p.dataLen + bytes.length ≤ p.maxDataLen then
    if 0 < bytes.length then
      .ok { p with
        data := copyInto p.data p.dataLen bytes
        dataLen := p.dataLen + bytes.length
        data_length := by
          rw [length_copyInto (by rw [p.data_length]; exact h), p.data_length] }
    else .ok p
  else .error .assertFailed

def setData (p : Packet) (bytes : List UInt8) : Except Fault Packet :=
  let p := { p with dataLen := 0 }
  if 0 < bytes.length then p.appendData bytes else .ok p

def appendByte (p : Packet) (byte : UInt8) : Except Fault Packet :=
  if p.dataLen < p.maxDataLen then
    .ok { p with
      data := p.data.set p.dataLen byte
      dataLen := p.dataLen + 1
      data_length := by rw [List.length_set, p.data_length] }
  else .error .assertFailed

/-- `append<T>`. -/
def appendAs {T : Type} [Pod T] (p : Packet) (data : T) :
    Except Fault Packet :=
  p.appendData (Pod.toBytes data)

/-- The bytes of a `uint32_t` in memory, on the little-endian targets. -/
abbrev bytesOf (value : UInt32) : List UInt8 := Pod.toBytes value

/-- `append<uint32_t>`. -/
def append (p : Packet) (value : UInt32) : Except Fault Packet :=
  p.appendAs value

/-- `append` of a string: an 8-bit length, the string, and a terminating
null. -/
def appendStr (p : Packet) (str : List UInt8) : Except Fault Packet := do
  let strLength := UInt8.ofNat (strnlen str 256 + 1)
  let p ← p.appendAs strLength
  if str.length < strLength.toNat then .error .outOfBounds
  p.appendData (str.take strLength.toNat)

def getSpaceRemaining (p : Packet) : Nat := p.maxDataLen - p.dataLen

/-- Bytes that the caller is to write count as data from now on, whether or
not there is room for them.  The pointer to the first of them is its place in
the storage. -/
def getWriteData (p : Packet) (numBytes : Nat) : Nat × Packet :=
  (p.dataLen, { p with dataLen := p.dataLen + numBytes })

/-- Write through a pointer to a byte of the storage. -/
def write (p : Packet) (idx : Nat) (byte : UInt8) : Packet :=
  { p with
    data := p.data.set idx byte
    data_length := by rw [List.length_set, p.data_length] }

/-- Read the `dataLen` bytes that `getData` points to. -/
def readData (p : Packet) : Except Fault (List UInt8) :=
  if p.dataLen ≤ p.data.length then .ok (p.data.take p.dataLen)
  else .error .outOfBounds

/-- Dumping a packet reads its data and leaves the packet alone. -/
def dump (p : Packet) : Except Fault Unit := do
  let _ ← p.readData
  return ()

def calcCrc (crc8 : UInt8 → UInt8 → UInt8) (p : Packet) :
    Except Fault UInt8 := do
  let expectedCrc := crc8 0 p.command
  let bytes ← p.readData
  return bytes.foldl crc8 expectedCrc

def calcAndStoreCrc (crc8 : UInt8 → UInt8 → UInt8) (p : Packet) :
    Except Fault Packet := do
  let crc ← p.calcCrc crc8
  return { p with crc := crc }

/-- Remove the last byte of the packet. -/
def removeByte (p : Packet) : Packet :=
  if 0 < p.dataLen then { p with dataLen := p.dataLen - 1 } else p

/-- The CRC comes last on the wire, so it is the last byte of the data. -/
def extractCrc (p : Packet) : Except Fault (UInt8 × Packet) :=
  if 1 ≤ p.dataLen then
    match p.data[p.dataLen - 1]? with
    | some byte => .ok (byte, { p with dataLen := p.dataLen - 1, crc := byte })
    | none => .error .outOfBounds
  else .error .assertFailed

/-! ## What a packet holds -/

/-- The bytes in use. -/
def payload (p : Packet) : List UInt8 := p.data.take p.dataLen

/-- The packet has room for `capacity` bytes, and holds a command and data
that fit. -/
structure Holds (p : Packet) (capacity : Nat) (cmd : UInt8)
    (bs : List UInt8) : Prop where
  maxDataLen : p.maxDataLen = capacity
  command : p.command = cmd
  fits : p.dataLen ≤ p.maxDataLen
  payload : p.payload = bs

variable {p : Packet} {capacity : Nat} {cmd : UInt8} {bs : List UInt8}

/-- A packet whose length is within bounds holds its own contents. -/
theorem holds_self (h : p.dataLen ≤ p.maxDataLen) :
    p.Holds p.maxDataLen p.command p.payload := ⟨rfl, rfl, h, rfl⟩

theorem Holds.dataLen (h : p.Holds capacity cmd bs) : p.dataLen = bs.length := by
  have hlen : p.data.length = p.maxDataLen := p.data_length
  have hfits := h.fits
  rw [← h.payload, Packet.payload, List.length_take]
  omega

theorem Holds.length_le (h : p.Holds capacity cmd bs) :
    bs.length ≤ capacity := by
  rw [← h.dataLen, ← h.maxDataLen]
  exact h.fits

theorem Holds.setCommand (h : p.Holds capacity cmd bs) (c : UInt8) :
    (p.setCommand c).Holds capacity c bs :=
  ⟨h.maxDataLen, rfl, h.fits, h.payload⟩

theorem Holds.readData (h : p.Holds capacity cmd bs) : p.readData = .ok bs := by
  have hfits : p.dataLen ≤ p.data.length := by
    rw [p.data_length]
    exact h.fits
  rw [Packet.readData, if_pos hfits]
  exact congrArg _ h.payload

theorem Holds.dump (h : p.Holds capacity cmd bs) : p.dump = .ok () := by
  rw [Packet.dump, h.readData]
  rfl

theorem Holds.calcCrc (crc8 : UInt8 → UInt8 → UInt8)
    (h : p.Holds capacity cmd bs) :
    p.calcCrc crc8 = .ok (checksum crc8 cmd bs) := by
  rw [Packet.calcCrc, h.readData, h.command]
  rfl

theorem Holds.calcAndStoreCrc (crc8 : UInt8 → UInt8 → UInt8)
    (h : p.Holds capacity cmd bs) :
    ∃ q, p.calcAndStoreCrc crc8 = .ok q ∧ q.Holds capacity cmd bs ∧
      q.crc = checksum crc8 cmd bs := by
  refine ⟨{ p with crc := checksum crc8 cmd bs }, ?_,
    ⟨h.maxDataLen, h.command, h.fits, h.payload⟩, rfl⟩
  rw [Packet.calcAndStoreCrc, h.calcCrc crc8]
  rfl

private theorem take_copyInto {data bytes : List UInt8} {idx : Nat}
    (h : idx ≤ data.length) :
    (copyInto data idx bytes).take (idx + bytes.length) =
      data.take idx ++ bytes := by
  have hlen : (data.take idx ++ bytes).length = idx + bytes.length := by
    rw [List.length_append, List.length_take]
    omega
  rw [copyInto, ← hlen, List.take_left]

theorem Holds.appendData (h : p.Holds capacity cmd bs) (bytes : List UInt8)
    (hroom : bs.length + bytes.length ≤ capacity) :
    ∃ q, p.appendData bytes = .ok q ∧ q.Holds capacity cmd (bs ++ bytes) := by
  have hdataLen := h.dataLen
  have hmax := h.maxDataLen
  have hfits : p.dataLen + bytes.length ≤ p.maxDataLen := by omega
  rw [Packet.appendData, dif_pos hfits]
  split
  · refine ⟨_, rfl, hmax, h.command, hfits, ?_⟩
    have hlen : p.data.length = p.maxDataLen := p.data_length
    rw [Packet.payload, take_copyInto (by omega)]
    exact congrArg (· ++ bytes) h.payload
  · have hnil : bytes = [] := List.eq_nil_of_length_eq_zero (by omega)
    refine ⟨p, rfl, ?_⟩
    rw [hnil, List.append_nil]
    exact h

/-- Data that does not fit trips the assertion. -/
theorem appendData_fails {bytes : List UInt8}
    (h : p.maxDataLen < p.dataLen + bytes.length) :
    p.appendData bytes = .error .assertFailed :=
  dif_neg (Nat.not_le_of_lt h)

/-- What appending does to the lengths. -/
theorem lengths_of_appendData {p q : Packet} {bytes : List UInt8}
    (h : p.appendData bytes = .ok q) :
    p.dataLen + bytes.length ≤ p.maxDataLen ∧
      q.dataLen = p.dataLen + bytes.length ∧ q.maxDataLen = p.maxDataLen := by
  unfold appendData at h
  split at h
  · next hroom =>
      split at h
      · cases h
        exact ⟨hroom, rfl, rfl⟩
      · cases h
        exact ⟨hroom, by omega, rfl⟩
  · cases h

/-- Setting the data forgets what the packet held before. -/
theorem setData_holds (p : Packet) (bytes : List UInt8)
    (hroom : bytes.length ≤ p.maxDataLen) :
    ∃ q, p.setData bytes = .ok q ∧
      q.Holds p.maxDataLen p.command bytes := by
  have hempty : ({ p with dataLen := 0 } : Packet).Holds p.maxDataLen
      p.command [] := ⟨rfl, rfl, Nat.zero_le _, rfl⟩
  rw [setData]
  split
  · exact hempty.appendData bytes (by simpa using hroom)
  · have hnil : bytes = [] := List.eq_nil_of_length_eq_zero (by omega)
    exact ⟨_, rfl, hnil ▸ hempty⟩

theorem setData_fails {bytes : List UInt8} (h : p.maxDataLen < bytes.length) :
    p.setData bytes = .error .assertFailed := by
  have hpos : 0 < bytes.length := Nat.lt_of_le_of_lt (Nat.zero_le _) h
  rw [setData, if_pos hpos]
  apply appendData_fails
  rw [Nat.zero_add]
  exact h

theorem Holds.appendByte (h : p.Holds capacity cmd bs) (byte : UInt8)
    (hroom : bs.length < capacity) :
    ∃ q, p.appendByte byte = .ok q ∧ q.Holds capacity cmd (bs ++ [byte]) := by
  have hdataLen := h.dataLen
  have hmax := h.maxDataLen
  have hlt : p.dataLen < p.maxDataLen := by omega
  rw [Packet.appendByte, if_pos hlt]
  refine ⟨_, rfl, hmax, h.command, hlt, ?_⟩
  have hlen : p.dataLen < p.data.length := by
    rw [p.data_length]
    exact hlt
  rw [Packet.payload, List.take_add_one, List.take_set_of_le (Nat.le_refl _),
    List.getElem?_set_self hlen]
  exact congrArg (· ++ [byte]) h.payload

theorem Holds.getSpaceRemaining (h : p.Holds capacity cmd bs) :
    p.getSpaceRemaining = capacity - bs.length := by
  rw [Packet.getSpaceRemaining, h.maxDataLen, h.dataLen]

/-- A byte that is claimed holds whatever the storage has there. -/
theorem Holds.getWriteData_one (h : p.Holds capacity cmd bs)
    (hroom : bs.length < capacity) :
    ∃ q byte, p.getWriteData 1 = (bs.length, q) ∧
      q.Holds capacity cmd (bs ++ [byte]) := by
  have hdataLen := h.dataLen
  have hmax := h.maxDataLen
  have hlen : p.dataLen < p.data.length := by
    rw [p.data_length]
    omega
  refine ⟨{ p with dataLen := p.dataLen + 1 }, p.data[p.dataLen], ?_, hmax,
    h.command, ?_, ?_⟩
  · rw [Packet.getWriteData, hdataLen]
  · show p.dataLen + 1 ≤ p.maxDataLen
    omega
  · have hpayload := h.payload
    rw [Packet.payload] at hpayload ⊢
    rw [List.take_add_one, List.getElem?_eq_getElem hlen, hpayload]
    rfl

theorem Holds.write (h : p.Holds capacity cmd bs) (idx : Nat) (byte : UInt8) :
    (p.write idx byte).Holds capacity cmd (bs.set idx byte) := by
  refine ⟨h.maxDataLen, h.command, h.fits, ?_⟩
  have hpayload := h.payload
  rw [Packet.payload] at hpayload ⊢
  rw [← hpayload, Packet.write, List.take_set]

/-- Storing a byte leaves the CRC alone. -/
theorem crc_appendByte {p q : Packet} {byte : UInt8}
    (h : p.appendByte byte = .ok q) : q.crc = p.crc := by
  unfold Packet.appendByte at h
  split at h
  · cases h
    rfl
  · cases h

theorem Holds.extractCrc {sum : UInt8} (h : p.Holds capacity cmd (bs ++ [sum])) :
    ∃ q, p.extractCrc = .ok (sum, q) ∧ q.Holds capacity cmd bs ∧
      q.crc = sum := by
  have hdataLen : p.dataLen = bs.length + 1 := by simpa using h.dataLen
  have hpayload : p.data.take (bs.length + 1) = bs ++ [sum] := by
    rw [← hdataLen]
    exact h.payload
  have hget : p.data[p.dataLen - 1]? = some sum := by
    have hlast := congrArg (·[bs.length]?) hpayload
    simpa [List.getElem?_take_of_lt, hdataLen] using hlast
  rw [Packet.extractCrc, if_pos (by omega), hget]
  refine ⟨_, rfl, ⟨h.maxDataLen, h.command, ?_, ?_⟩, rfl⟩
  · have := h.fits
    simp only
    omega
  · have hinit := congrArg (List.take bs.length) hpayload
    simpa [Packet.payload, hdataLen, List.take_take] using hinit

end Packet

end DuinoBus.Cpp
