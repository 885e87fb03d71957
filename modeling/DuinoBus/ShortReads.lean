import DuinoBus.DeviceReads
import DuinoBus.Py.Unpacker

/-!
# Reads of short data

The host and the device unpack the same bytes with the same reads.  The device
refuses a read that the bytes do not cover.  The host raises for a byte only:
a slice past the end of the data yields what there is, and a number or some
bytes are made of that.

`reads_agree_iff` says that the two agree, up to the first read that fails, if
and only if every other read is covered.
-/

namespace DuinoBus.ShortReads

open DuinoBus.Wire
open DuinoBus.Verified

/-- What both unpackers offer to read. -/
inductive Read where
  | u8
  | u16
  | u32
  | data (numBytes : Nat)
  deriving DecidableEq, Repr

/-- What is read. -/
inductive Value where
  | number (n : Nat)
  | data (bytes : List UInt8)
  deriving DecidableEq, Repr

/-- The number of bytes to read. -/
def Read.width : Read → Nat
  | .u8 => 1
  | .u16 => 2
  | .u32 => 4
  | .data numBytes => numBytes

/-- The host's `unpack_u8`, `unpack_u16`, `unpack_u32` and `unpack_data`. -/
def hostRead (u : Py.Unpacker) : Read → Except Fault (Value × Py.Unpacker)
  | .u8 => do
      let (val, u) ← u.unpackU8
      return (.number val.toNat, u)
  | .u16 => .ok (.number u.unpackU16.1, u.unpackU16.2)
  | .u32 => .ok (.number u.unpackU32.1, u.unpackU32.2)
  | .data numBytes =>
      .ok (.data (u.unpackData numBytes).1, (u.unpackData numBytes).2)

/-- The device's `unpack` into a number, with the value if it succeeds. -/
def deviceNumber {T : Type} [Pod T] (toNat : T → Nat) (u : Cpp.Unpacker)
    (var : T) : Except Fault (Option Value × Cpp.Unpacker) := do
  let (done, data, u) ← u.unpackAs var
  return (if done then some (.number (toNat data)) else none, u)

/-- The device's `unpack` into a variable that contains 0 before, or of some
bytes, which are then read through the pointer. -/
def deviceRead (u : Cpp.Unpacker) :
    Read → Except Fault (Option Value × Cpp.Unpacker)
  | .u8 => deviceNumber UInt8.toNat u 0
  | .u16 => deviceNumber UInt16.toNat u 0
  | .u32 => deviceNumber UInt32.toNat u 0
  | .data numBytes =>
      let (done, ptr, u) := u.unpackData numBytes []
      .ok (if done then some (.data (ptr.take numBytes)) else none, u)

/-- The host returns a value exactly when the device succeeds, with the same
value, and its index is within the data.  It raises otherwise. -/
def Agree : Except Fault (Value × Py.Unpacker) →
    Except Fault (Option Value × Cpp.Unpacker) → Prop
  | .ok (val, host), .ok (some data, _) =>
      val = data ∧ host.idx ≤ host.data.length
  | .error _, .ok (none, _) => True
  | _, _ => False

/-- Both unpackers read.  Nothing comes after a read that fails. -/
def readBoth (s : Py.Unpacker × Cpp.Unpacker) (r : Read) :
    Except Unit ((Value × Value) × Py.Unpacker × Cpp.Unpacker) :=
  match hostRead s.1 r, deviceRead s.2 r with
  | .ok (val, host), .ok (some data, device) =>
      .ok ((val, data), host, device)
  | _, _ => .error ()

/-- Each read up to the first one that fails is answered alike. -/
def ReadsAgree (s : Py.Unpacker × Cpp.Unpacker) (reads : List Read) : Prop :=
  Along readBoth
    (fun s r _ => Agree (hostRead s.1 r) (deviceRead s.2 r)) s reads

/-- Reads of more than a byte are covered by the bytes that remain. -/
def Covered (rest : List UInt8) (r : Read) : Prop :=
  r = .u8 ∨ r.width ≤ rest.length

/-- What remains after a read that does not fail. -/
def remaining (rest : List UInt8) (r : Read) : Option (List UInt8) :=
  if r.width ≤ rest.length then some (rest.drop r.width) else none

/-- The value of the bytes that a read takes. -/
def valueOf : Read → List UInt8 → Value
  | .data _, bytes => .data bytes
  | _, bytes => .number (leValue bytes)

/-! ## One read -/

section Host

variable {u : Py.Unpacker} {rest : List UInt8}

/-- The host reads what is there. -/
theorem hostRead_eq (h : u.At rest) {r : Read}
    (hroom : r.width ≤ rest.length) :
    ∃ u', hostRead u r = .ok (valueOf r (rest.take r.width), u') ∧
      u'.At (rest.drop r.width) := by
  have hslice := h.slice_eq r.width
  have hdrop := h.drop hroom
  cases r with
  | u8 =>
      cases rest with
      | nil => cases hroom
      | cons byte rest =>
          obtain ⟨u', hunpack, hat'⟩ := h.unpackU8
          have hvalue : leValue [byte] = byte.toNat := by
            show byte.toNat + 256 * 0 = byte.toNat
            omega
          refine ⟨u', ?_, hat'⟩
          simp only [hostRead, hunpack, bind, Except.bind]
          rw [← hvalue]
          rfl
  | u16 =>
      refine ⟨_, ?_, hdrop⟩
      rw [hostRead, Py.Unpacker.unpackU16]
      exact congrArg (fun bytes => Except.ok (Value.number (leValue bytes), _))
        hslice
  | u32 =>
      refine ⟨_, ?_, hdrop⟩
      rw [hostRead, Py.Unpacker.unpackU32]
      exact congrArg (fun bytes => Except.ok (Value.number (leValue bytes), _))
        hslice
  | data numBytes =>
      refine ⟨_, ?_, hdrop⟩
      rw [hostRead, Py.Unpacker.unpackData]
      exact congrArg (fun bytes => Except.ok (Value.data bytes, _)) hslice

/-- Of the reads that are not covered, the host raises for a byte only. -/
theorem hostRead_short (h : u.At rest) {r : Read}
    (hshort : rest.length < r.width) :
    if r = .u8 then hostRead u r = .error .indexError
    else ∃ val u', hostRead u r = .ok (val, u') := by
  cases r with
  | u8 =>
      have hnil : rest = [] := List.eq_nil_of_length_eq_zero
        (Nat.lt_one_iff.mp hshort)
      rw [hnil] at h
      rw [if_pos rfl, hostRead, h.unpackU8_nil]
      rfl
  | u16 => exact ⟨_, _, rfl⟩
  | u32 => exact ⟨_, _, rfl⟩
  | data numBytes => exact ⟨_, _, rfl⟩

end Host

section Device

variable {packet : Cpp.Packet} {u : Cpp.Unpacker} {rest : List UInt8}

/-- A number of any width is read if what remains covers it. -/
private theorem deviceNumber_eq {T : Type} [Pod T] {toNat : T → Nat}
    (h : u.At packet rest) (var : T)
    (hvalue : ∀ bytes : List UInt8, bytes.length = Pod.size T →
      toNat (Pod.ofBytes bytes) = leValue bytes) :
    if rest.length < Pod.size T then deviceNumber toNat u var = .ok (none, u)
    else ∃ u', deviceNumber toNat u var =
        .ok (some (.number (leValue (rest.take (Pod.size T)))), u') ∧
      u'.At packet (rest.drop (Pod.size T)) := by
  rw [deviceNumber, h.unpackAs_eq]
  split
  · rfl
  · next hroom =>
      have hroom := Nat.not_lt.mp hroom
      have hnumber := hvalue (rest.take (Pod.size T))
        (List.length_take_of_le hroom)
      refine ⟨_, ?_, h.drop hroom⟩
      rw [← hnumber]
      rfl

/-- The device reads what the bytes cover, and refuses anything else. -/
theorem deviceRead_eq (h : u.At packet rest) (r : Read) :
    if rest.length < r.width then deviceRead u r = .ok (none, u)
    else ∃ u', deviceRead u r =
        .ok (some (valueOf r (rest.take r.width)), u') ∧
      u'.At packet (rest.drop r.width) := by
  cases r with
  | u8 =>
      apply deviceNumber_eq h (0 : UInt8)
      intro bytes hlen
      have hlt := leValue_lt bytes
      rw [hlen] at hlt
      exact UInt8.toNat_ofNat_of_lt' hlt
  | u16 =>
      apply deviceNumber_eq h (0 : UInt16)
      intro bytes hlen
      have hlt := leValue_lt bytes
      rw [hlen] at hlt
      exact UInt16.toNat_ofNat_of_lt' hlt
  | u32 =>
      apply deviceNumber_eq h (0 : UInt32)
      intro bytes hlen
      have hlt := leValue_lt bytes
      rw [hlen] at hlt
      exact UInt32.toNat_ofNat_of_lt' hlt
  | data numBytes =>
      show if rest.length < numBytes then _ else _
      rw [deviceRead, h.unpackData_eq]
      split
      · rfl
      · next hroom =>
          have hroom := Nat.not_lt.mp hroom
          refine ⟨_, ?_, h.drop hroom⟩
          show Except.ok (some (Value.data (u.data.take numBytes)), _) = _
          rw [h.take_eq hroom]
          rfl

end Device

/-! ## Any reads -/

/-- **One read** is answered alike exactly if it is covered, or of a byte. -/
theorem agree_iff {packet : Cpp.Packet} {s : Py.Unpacker × Cpp.Unpacker}
    {rest : List UInt8} (hhost : s.1.At rest) (hdevice : s.2.At packet rest)
    (r : Read) :
    Agree (hostRead s.1 r) (deviceRead s.2 r) ↔ Covered rest r := by
  have hread := deviceRead_eq hdevice r
  by_cases hshort : rest.length < r.width
  · have hhostRead := hostRead_short hhost hshort
    rw [if_pos hshort] at hread
    rw [hread]
    by_cases hbyte : r = .u8
    · rw [if_pos hbyte] at hhostRead
      rw [hhostRead]
      exact ⟨fun _ => .inl hbyte, fun _ => trivial⟩
    · rw [if_neg hbyte] at hhostRead
      obtain ⟨val, u', hok⟩ := hhostRead
      rw [hok]
      constructor
      · intro hfalse
        cases hfalse
      · intro hcovered
        cases hcovered with
        | inl hsame => exact absurd hsame hbyte
        | inr hroom => exact absurd hshort (Nat.not_lt.mpr hroom)
  · have hroom := Nat.not_lt.mp hshort
    obtain ⟨host, hok, hat⟩ := hostRead_eq hhost hroom
    rw [if_neg hshort] at hread
    obtain ⟨device, hdone, _⟩ := hread
    rw [hok, hdone]
    exact ⟨fun _ => .inr hroom, fun _ => ⟨rfl, hat.idx_le⟩⟩

/-- While the reads are answered alike, the two unpackers are at the same
place. -/
private theorem governs_reads (packet : Cpp.Packet) :
    Governs Covered remaining readBoth
      (fun s r _ => Agree (hostRead s.1 r) (deviceRead s.2 r))
      (fun s rest => s.1.At rest ∧ s.2.At packet rest) := by
  refine ⟨fun s rest r h => agree_iff h.1 h.2 r, ?_, ?_⟩
  · intro s rest r values s' h _ hok
    have hread := deviceRead_eq h.2 r
    rw [remaining]
    by_cases hshort : rest.length < r.width
    · rw [if_pos hshort] at hread
      rw [readBoth, hread] at hok
      cases hhost : hostRead s.1 r <;> rw [hhost] at hok <;> cases hok
    · have hroom := Nat.not_lt.mp hshort
      obtain ⟨host, hhost, hhostAt⟩ := hostRead_eq h.1 hroom
      rw [if_neg hshort] at hread
      obtain ⟨device, hdevice, hdeviceAt⟩ := hread
      rw [readBoth, hhost, hdevice] at hok
      cases hok
      rw [if_pos hroom]
      exact ⟨_, rfl, hhostAt, hdeviceAt⟩
  · intro s rest r _ h _ herror
    rw [remaining]
    by_cases hroom : r.width ≤ rest.length
    · obtain ⟨host, hhost, _⟩ := hostRead_eq h.1 hroom
      have hread := deviceRead_eq h.2 r
      rw [if_neg (Nat.not_lt.mpr hroom)] at hread
      obtain ⟨device, hdevice, _⟩ := hread
      rw [readBoth, hhost, hdevice] at herror
      cases herror
    · rw [if_neg hroom]

/-- **When the unpackers agree.**  For all data and all reads: host and device
answer alike, up to the first read that fails, if and only if every read of
more than a byte is covered by the bytes that remain. -/
theorem reads_agree_iff {packet : Cpp.Packet} {capacity : Nat} {cmd : UInt8}
    {data : List UInt8} (h : packet.Holds capacity cmd data)
    (u : Cpp.Unpacker) (reads : List Read) :
    ReadsAgree (Py.Unpacker.new data, u.setData packet) reads ↔
      Meets Covered remaining data reads :=
  (governs_reads packet).along_iff
    ⟨Py.Unpacker.at_new data, Cpp.Unpacker.at_setData h u⟩ reads

theorem reads_agree_iff_fourBytes :
    ReadsAgree (Py.Unpacker.new [0x01, 0x02, 0x03, 0x04],
        Cpp.Unpacker.setData ⟨[], 0⟩
          (DeviceReads.packetOf [0x01, 0x02, 0x03, 0x04]))
        [.u16, .data 2, .u8] ↔
      Meets Covered remaining [0x01, 0x02, 0x03, 0x04] [.u16, .data 2, .u8] :=
  reads_agree_iff (DeviceReads.holds_packetOf [0x01, 0x02, 0x03, 0x04])
    ⟨[], 0⟩ [.u16, .data 2, .u8]

/-- The host makes a 16-bit number of a single byte. -/
theorem reads_agree_fails :
    ¬ ∀ (packet : Cpp.Packet) (capacity : Nat) (cmd : UInt8)
      (data : List UInt8), packet.Holds capacity cmd data →
        ∀ (u : Cpp.Unpacker) (reads : List Read),
          ReadsAgree (Py.Unpacker.new data, u.setData packet) reads := by
  intro h
  have hholds := DeviceReads.holds_packetOf [0x41]
  have hagree := (h _ _ _ _ hholds ⟨[], 0⟩ [.u16]).1
  have hcovered := (agree_iff (Py.Unpacker.at_new [0x41])
    (Cpp.Unpacker.at_setData hholds ⟨[], 0⟩) .u16).mp hagree
  cases hcovered with
  | inl hbyte => cases hbyte
  | inr hroom => exact absurd hroom (by decide)

end DuinoBus.ShortReads
