import DuinoBus.Cpp.SizeT
import DuinoBus.DevicePacks

/-!
# The representation invariant of packets

The length of the data of a packet is at most the size of its storage.  The
space that remains, and every check that rests on it, is right only then.

`apply` is any public operation that changes a packet, with lengths of type
`size_t`.  Most of them check the length and stop on a failed assertion.  But
`getWriteData` claims bytes whether or not there is room for them, and the sum
in the assertion of `appendData` may wrap around.  `invariant_iff` says that
any operations in a row keep the invariant, or stop, if and only if all bytes
that are claimed are within the storage, or so many that the length wraps
around and gets smaller, and no append wraps around.
-/

namespace DuinoBus.PacketInvariant

open DuinoBus.Wire
open DuinoBus.Verified
open DuinoBus.Cpp
open DuinoBus.Cpp.Packer (lengthByte)
open DuinoBus.DevicePacks (CString)

/-- A public operation that changes a packet, with its arguments. -/
inductive Op (w : Nat) : Type 1 where
  | setCommand (cmd : UInt8)
  | setData (dataLen : BitVec w) (data : Nat → UInt8)
  | appendData (dataLen : BitVec w) (data : Nat → UInt8)
  | appendByte (byte : UInt8)
  | append {T : Type} [Pod T] (size : Pod.size T < 2 ^ w) (data : T)
  | appendStr (str : CString)
  | getWriteData (numBytes : BitVec w)
  | removeByte
  | calcAndStoreCrc

variable {w : Nat}

/-- The pointer that the operation returns, if it returns one, and the
packet. -/
def apply (crc8 : UInt8 → UInt8 → UInt8) (p : SizeT.Packet w) (op : Op w) :
    Except Fault (Option (BitVec w) × SizeT.Packet w) :=
  match op with
  | .setCommand cmd => .ok (none, p.setCommand cmd)
  | .setData dataLen data => (p.setData dataLen data).map (none, ·)
  | .appendData dataLen data => (p.appendData dataLen data).map (none, ·)
  | .appendByte byte => (p.appendByte byte).map (none, ·)
  | @Op.append _ _ _ _ data => (p.appendAs data).map (none, ·)
  | .appendStr str => (p.appendStr str.ptr).map (none, ·)
  | .getWriteData numBytes =>
      .ok (some (p.getWriteData numBytes).1, (p.getWriteData numBytes).2)
  | .removeByte => .ok (none, p.removeByte)
  | .calcAndStoreCrc => (p.calcAndStoreCrc crc8).map (none, ·)

/-- The length is within the storage, and the difference of the two does not
wrap around. -/
structure InOrder (p : SizeT.Packet w) : Prop where
  fits : p.dataLen ≤ p.maxDataLen
  space : p.getSpaceRemaining.toNat = p.maxDataLen.toNat - p.dataLen.toNat

/-- The operation stops on a failed assertion, or leaves the packet in order;
and a pointer that it returns, and that pointer when it has advanced, are
within the storage. -/
def KeepsInvariant (_ : SizeT.Packet w) (op : Op w) :
    Except Fault (Option (BitVec w) × SizeT.Packet w) → Prop
  | .error e => e = .assertFailed
  | .ok (ptr, q) => InOrder q ∧
      ∀ numBytes place, op = .getWriteData numBytes → ptr = some place →
        place.toNat ≤ q.data.length ∧ (place + numBytes).toNat ≤ q.data.length

/-- Bytes that are claimed are within the storage, or make the length wrap
around; and bytes that are appended do not. -/
def Within (w capacity len : Nat) : Op w → Prop
  | .getWriteData numBytes =>
      len + numBytes.toNat ≤ capacity ∨ 2 ^ w ≤ len + numBytes.toNat
  | .appendData dataLen _ => len + dataLen.toNat < 2 ^ w
  | @Op.append _ T _ _ _ => len + Pod.size T < 2 ^ w
  | .appendStr str => len + 1 < 2 ^ w ∧
      (len + 1 ≤ capacity → len + 1 + (lengthByte str.ptr).toNat < 2 ^ w)
  | _ => True

/-- The length when some bytes were appended, if there was room for them. -/
def grown (capacity len numBytes : Nat) : Option Nat :=
  if len + numBytes ≤ capacity then some (len + numBytes) else none

/-- The length after an operation that does not stop. -/
def lengthAfter (capacity len : Nat) (op : Op w) : Option Nat :=
  match op with
  | .setCommand _ => some len
  | .setData dataLen _ => grown capacity 0 dataLen.toNat
  | .appendData dataLen _ => grown capacity len dataLen.toNat
  | .appendByte _ => grown capacity len 1
  | @Op.append _ T _ _ _ => grown capacity len (Pod.size T)
  | .appendStr str => grown capacity len ((lengthByte str.ptr).toNat + 1)
  | .getWriteData numBytes => some ((len + numBytes.toNat) % 2 ^ w)
  | .removeByte => some (len - 1)
  | .calcAndStoreCrc => some len

/-! ## What an operation does to the length -/

/-- The packet has room for `capacity` bytes, and `len` of them are in use. -/
structure Sized (capacity : Nat) (p : Packet) (len : Nat) : Prop where
  maxDataLen : p.maxDataLen = capacity
  dataLen : p.dataLen = len
  fits : len ≤ capacity

theorem Sized.dataLen_le {capacity len : Nat} {p : Packet}
    (h : Sized capacity p len) : p.dataLen ≤ p.maxDataLen := by
  rw [h.maxDataLen, h.dataLen]
  exact h.fits

theorem Sized.of_holds {capacity : Nat} {p : Packet} {cmd : UInt8}
    {bs : List UInt8} (h : p.Holds capacity cmd bs) :
    Sized capacity p bs.length :=
  ⟨h.maxDataLen, h.dataLen, h.length_le⟩

theorem Sized.holds {capacity len : Nat} {p : Packet}
    (h : Sized capacity p len) :
    p.Holds capacity p.command p.payload := by
  have hholds := Packet.holds_self h.dataLen_le
  rw [h.maxDataLen] at hholds
  exact hholds

/-- The data come to a length that fits, or an assertion fails. -/
def Comes (capacity : Nat) (len : Option Nat) (r : Except Fault Packet) :
    Prop :=
  match len with
  | some len => ∃ q, r = .ok q ∧ Sized capacity q len
  | none => r = .error .assertFailed

section Operations

variable {capacity len : Nat} {p : Packet}

theorem comes_appendData (h : Sized capacity p len) (bytes : List UInt8) :
    Comes capacity (grown capacity len bytes.length) (p.appendData bytes) := by
  have hlen := h.holds.dataLen
  have hdataLen := h.dataLen
  have hmax := h.maxDataLen
  rw [grown]
  split
  · next hroom =>
      obtain ⟨q, happend, hq⟩ := h.holds.appendData bytes (by omega)
      have hsized := Sized.of_holds hq
      rw [List.length_append, ← hlen, hdataLen] at hsized
      exact ⟨q, happend, hsized⟩
  · next hroom =>
      apply Packet.appendData_fails
      omega

theorem comes_setData (h : Sized capacity p len) (bytes : List UInt8) :
    Comes capacity (grown capacity 0 bytes.length) (p.setData bytes) := by
  have hmax := h.maxDataLen
  rw [grown, Nat.zero_add]
  split
  · next hroom =>
      obtain ⟨q, hset, hq⟩ := p.setData_holds bytes (by omega)
      have hsized := Sized.of_holds hq
      rw [hmax] at hsized
      exact ⟨q, hset, hsized⟩
  · next hroom =>
      apply Packet.setData_fails
      omega

theorem comes_appendByte (h : Sized capacity p len) (byte : UInt8) :
    Comes capacity (grown capacity len 1) (p.appendByte byte) := by
  have hlen := h.holds.dataLen
  have hdataLen := h.dataLen
  have hmax := h.maxDataLen
  rw [grown]
  split
  · next hroom =>
      obtain ⟨q, happend, hq⟩ := h.holds.appendByte byte (by omega)
      have hsized := Sized.of_holds hq
      rw [List.length_append, ← hlen, hdataLen] at hsized
      exact ⟨q, happend, hsized⟩
  · next hroom =>
      show p.appendByte byte = .error .assertFailed
      rw [Packet.appendByte, if_neg (by omega)]

theorem comes_appendStr (h : Sized capacity p len) (str : CString) :
    Comes capacity (grown capacity len ((lengthByte str.ptr).toNat + 1))
      (p.appendStr str.ptr) := by
  have hcovered := Nat.le_trans str.toNat_lengthByte_le str.length_lt
  have hmemory : ¬ str.ptr.length < (lengthByte str.ptr).toNat :=
    Nat.not_lt.mpr hcovered
  have hlength := comes_appendData h [lengthByte str.ptr]
  rw [List.length_singleton, grown] at hlength
  rw [grown]
  by_cases hbyte : len + 1 ≤ capacity
  · rw [if_pos hbyte] at hlength
    obtain ⟨q, happend, hq⟩ := hlength
    have htext := comes_appendData hq
      (str.ptr.take (lengthByte str.ptr).toNat)
    rw [List.length_take_of_le hcovered, grown] at htext
    have hbytes : p.appendStr str.ptr =
        q.appendData (str.ptr.take (lengthByte str.ptr).toNat) := by
      rw [lengthByte] at happend hmemory
      simp only [Packet.appendStr, Packet.appendAs, toBytes_byte, happend,
        bind, Except.bind, if_neg hmemory]
      rfl
    rw [hbytes, Nat.add_comm _ 1, ← Nat.add_assoc]
    exact htext
  · rw [if_neg hbyte] at hlength
    rw [if_neg (by omega)]
    have hfails : p.appendData [lengthByte str.ptr] = .error .assertFailed :=
      hlength
    show p.appendStr str.ptr = .error .assertFailed
    rw [lengthByte] at hfails
    simp only [Packet.appendStr, Packet.appendAs, toBytes_byte, hfails, bind,
      Except.bind]

theorem comes_calcAndStoreCrc (crc8 : UInt8 → UInt8 → UInt8)
    (h : Sized capacity p len) :
    Comes capacity (some len) (p.calcAndStoreCrc crc8) := by
  obtain ⟨q, hcrc, hq, _⟩ := h.holds.calcAndStoreCrc crc8
  have hsized := Sized.of_holds hq
  rw [← h.holds.dataLen, h.dataLen] at hsized
  exact ⟨q, hcrc, hsized⟩

theorem sized_removeByte (h : Sized capacity p len) :
    Sized capacity p.removeByte (len - 1) := by
  have hdataLen := h.dataLen
  have hfits := h.fits
  rw [Packet.removeByte]
  split
  · refine ⟨h.maxDataLen, ?_, by omega⟩
    show p.dataLen - 1 = len - 1
    rw [hdataLen]
  · exact ⟨h.maxDataLen, by omega, by omega⟩

end Operations

section SizedOperations

variable {capacity len : Nat} {p : SizeT.Packet w}

/-- A length without a bound that is within the storage is one of the packet
itself. -/
theorem Sized.inOrder (h : Sized capacity p.toPacket len) : InOrder p where
  fits := h.dataLen_le
  space := SizeT.Packet.toNat_getSpaceRemaining h.dataLen_le

/-- The operation comes to a length that fits, or an assertion fails. -/
def Leaves (capacity : Nat) (len : Option Nat)
    (r : Except Fault (Option (BitVec w) × SizeT.Packet w)) : Prop :=
  match len with
  | some len => ∃ ptr q, r = .ok (ptr, q) ∧ Sized capacity q.toPacket len
  | none => r = .error .assertFailed

theorem Comes.leaves {len : Option Nat} {r : Except Fault (SizeT.Packet w)}
    (h : Comes capacity len (r.map SizeT.Packet.toPacket)) :
    Leaves capacity len (r.map ((none : Option (BitVec w)), ·)) := by
  cases len with
  | none =>
      have herror : r.map SizeT.Packet.toPacket = .error .assertFailed := h
      cases r with
      | error e =>
          cases herror
          rfl
      | ok q => cases herror
  | some len =>
      obtain ⟨q, hok, hq⟩ := h
      cases r with
      | error e => cases hok
      | ok q =>
          cases hok
          exact ⟨none, q, rfl, hq⟩

/-- A claim that wraps around makes the length smaller. -/
private theorem sized_getWriteData (h : Sized capacity p.toPacket len)
    {numBytes : BitVec w} (hop : Within w capacity len (.getWriteData numBytes)) :
    Sized capacity (p.getWriteData numBytes).2.toPacket
      ((len + numBytes.toNat) % 2 ^ w) := by
  have hlen : p.dataLen.toNat = len := h.dataLen
  have hmax : p.maxDataLen.toNat = capacity := h.maxDataLen
  have hbound := p.maxDataLen.isLt
  have hadd := numBytes.isLt
  have hfits := h.fits
  refine ⟨hmax, ?_, ?_⟩
  · show (p.dataLen + numBytes).toNat = _
    rw [BitVec.toNat_add, hlen]
  · rcases hop with hwithin | hwraps
    · rw [Nat.mod_eq_of_lt (by omega)]
      exact hwithin
    · rw [Nat.mod_eq_sub_mod hwraps, Nat.mod_eq_of_lt (by omega)]
      omega

/-- **One operation** that claims and appends within bounds. -/
theorem leaves_apply (hw : 8 ≤ w) (crc8 : UInt8 → UInt8 → UInt8)
    (h : Sized capacity p.toPacket len) {op : Op w}
    (hop : Within w capacity len op) :
    Leaves capacity (lengthAfter capacity len op) (apply crc8 p op) := by
  have hlen : p.dataLen.toNat = len := h.dataLen
  have hmax : p.maxDataLen.toNat = capacity := h.maxDataLen
  cases op with
  | setCommand cmd =>
      exact ⟨none, _, rfl, h.maxDataLen, h.dataLen, h.fits⟩
  | setData dataLen data =>
      have hcomes := comes_setData h (SizeT.bytesAt data dataLen.toNat)
      rw [← SizeT.Packet.toPacket_setData, SizeT.length_bytesAt] at hcomes
      exact hcomes.leaves
  | appendData dataLen data =>
      have hcomes := comes_appendData h (SizeT.bytesAt data dataLen.toNat)
      rw [← SizeT.Packet.toPacket_appendData data (by rw [hlen]; exact hop),
        SizeT.length_bytesAt] at hcomes
      exact hcomes.leaves
  | appendByte byte =>
      have hcomes := comes_appendByte h byte
      rw [← SizeT.Packet.toPacket_appendByte] at hcomes
      exact hcomes.leaves
  | append hsize data =>
      have hcomes : Comes capacity _ (p.toPacket.appendAs data) :=
        comes_appendData h (Pod.toBytes data)
      rw [← SizeT.Packet.toPacket_appendAs hsize data (by rw [hlen]; exact hop),
        Pod.length_toBytes] at hcomes
      exact hcomes.leaves
  | appendStr str =>
      have hcomes := comes_appendStr h str
      rw [← SizeT.Packet.toPacket_appendStr hw (by rw [hlen]; exact hop.1)
        (by rw [hlen, hmax]; exact hop.2)] at hcomes
      exact hcomes.leaves
  | getWriteData numBytes => exact ⟨_, _, rfl, sized_getWriteData h hop⟩
  | removeByte =>
      refine ⟨none, _, rfl, ?_⟩
      rw [SizeT.Packet.toPacket_removeByte]
      exact sized_removeByte h
  | calcAndStoreCrc =>
      have hcomes := comes_calcAndStoreCrc crc8 h
      rw [← SizeT.Packet.toPacket_calcAndStoreCrc] at hcomes
      exact hcomes.leaves

/-- An operation within bounds keeps the invariant. -/
private theorem keeps_of_within (hw : 8 ≤ w) (crc8 : UInt8 → UInt8 → UInt8)
    (h : Sized capacity p.toPacket len) {op : Op w}
    (hop : Within w capacity len op) :
    KeepsInvariant p op (apply crc8 p op) := by
  have hleaves := leaves_apply hw crc8 h hop
  cases hafter : lengthAfter capacity len op with
  | none =>
      rw [hafter] at hleaves
      have herror : apply crc8 p op = .error .assertFailed := hleaves
      rw [herror]
      rfl
  | some len' =>
      rw [hafter] at hleaves
      obtain ⟨ptr, q, hok, hq⟩ := hleaves
      rw [hok]
      refine ⟨hq.inOrder, ?_⟩
      intro numBytes place hclaim hptr
      subst hclaim hptr
      -- the pointer is where the length was, and advances to where it is now
      have hdata : q.data.length = capacity := by
        rw [q.data_length]
        exact hq.maxDataLen
      cases hok
      rw [hdata]
      refine ⟨?_, ?_⟩
      · show p.toPacket.dataLen ≤ capacity
        rw [h.dataLen]
        exact h.fits
      · show (p.getWriteData numBytes).2.toPacket.dataLen ≤ capacity
        rw [hq.dataLen]
        exact hq.fits

/-- An operation out of bounds does not. -/
private theorem within_of_keeps (hw : 8 ≤ w) (crc8 : UInt8 → UInt8 → UInt8)
    (h : Sized capacity p.toPacket len) {op : Op w}
    (hkeeps : KeepsInvariant p op (apply crc8 p op)) :
    Within w capacity len op := by
  have hlen : p.dataLen.toNat = len := h.dataLen
  have hmax : p.maxDataLen.toNat = capacity := h.maxDataLen
  have hfits : p.dataLen ≤ p.maxDataLen := h.dataLen_le
  have hstops : ∀ {r : Except Fault (SizeT.Packet w)},
      r = .error .outOfBounds →
        ¬ KeepsInvariant p op (r.map ((none : Option (BitVec w)), ·)) := by
    rintro r rfl hassert
    cases hassert
  cases op with
  | appendData dataLen data =>
      by_contra hwraps
      refine hstops (SizeT.Packet.appendData_wraps hfits data ?_) hkeeps
      rw [hlen]
      exact Nat.not_lt.mp hwraps
  | append hsize data =>
      by_contra hwraps
      refine hstops (SizeT.Packet.appendAs_wraps hfits hsize data ?_) hkeeps
      rw [hlen]
      exact Nat.not_lt.mp hwraps
  | appendStr str =>
      by_contra hwraps
      refine hstops (SizeT.Packet.appendStr_wraps hw hfits ?_) hkeeps
      rw [hlen, hmax]
      by_cases hfirst : 2 ^ w ≤ len + 1
      · exact .inl hfirst
      · refine .inr ?_
        by_contra hsecond
        apply hwraps
        refine ⟨Nat.not_le.mp hfirst, fun hroom => ?_⟩
        by_contra htext
        exact hsecond ⟨hroom, Nat.not_lt.mp htext⟩
  | getWriteData numBytes =>
      have hle : (p.dataLen + numBytes).toNat ≤ p.maxDataLen.toNat :=
        hkeeps.1.fits
      rw [BitVec.toNat_add, hlen, hmax] at hle
      by_cases hwraps : 2 ^ w ≤ len + numBytes.toNat
      · exact .inr hwraps
      · rw [Nat.mod_eq_of_lt (Nat.not_le.mp hwraps)] at hle
        exact .inl hle
  | setCommand _ => trivial
  | setData _ _ => trivial
  | appendByte _ => trivial
  | removeByte => trivial
  | calcAndStoreCrc => trivial

/-- The condition governs the invariant. -/
private theorem governs_apply (hw : 8 ≤ w) (crc8 : UInt8 → UInt8 → UInt8)
    (capacity : Nat) :
    Governs (Within w capacity) (lengthAfter capacity) (apply crc8)
      KeepsInvariant (fun p => Sized capacity p.toPacket) := by
  refine ⟨fun p len op hp => ⟨within_of_keeps hw crc8 hp,
    keeps_of_within hw crc8 hp⟩, ?_, ?_⟩
  · intro p len op ptr q hp hwithin hok
    have hleaves := leaves_apply hw crc8 hp hwithin
    cases hafter : lengthAfter capacity len op with
    | none =>
        rw [hafter] at hleaves
        have herror : apply crc8 p op = .error .assertFailed := hleaves
        rw [herror] at hok
        cases hok
    | some len' =>
        rw [hafter] at hleaves
        obtain ⟨ptr', q', hok', hsized⟩ := hleaves
        rw [hok] at hok'
        cases hok'
        exact ⟨len', rfl, hsized⟩
  · intro p len op e hp hwithin herror
    have hleaves := leaves_apply hw crc8 hp hwithin
    cases hafter : lengthAfter capacity len op with
    | none => rfl
    | some len' =>
        rw [hafter] at hleaves
        obtain ⟨ptr', q', hok', _⟩ := hleaves
        rw [herror] at hok'
        cases hok'

end SizedOperations

/-- **When packets stay in order.**  For a `size_t` of at least eight bits,
every packet that is in order and any operations: each of them stops on a
failed assertion or leaves the packet in order, with every pointer within the
storage, if and only if every claim is within the storage or wraps around, and
no append does. -/
theorem invariant_iff (hw : 8 ≤ w) (crc8 : UInt8 → UInt8 → UInt8)
    {p : SizeT.Packet w} (h : p.dataLen ≤ p.maxDataLen) (ops : List (Op w)) :
    Along (apply crc8) KeepsInvariant p ops ↔
      Meets (Within w p.maxDataLen.toNat) (lengthAfter p.maxDataLen.toNat)
        p.dataLen.toNat ops := by
  apply (governs_apply hw crc8 p.maxDataLen.toNat).along_iff
  exact ⟨rfl, rfl, h⟩

/-- An empty packet of 16 bytes, where `size_t` has 64 bits. -/
def emptyPacket : SizeT.Packet 64 := ⟨0, 16, 0, List.replicate 16 0, 0, rfl⟩

/-- A claim of one byte, and one of so many that none are left. -/
theorem invariant_iff_claimed :
    Along (apply fun _ _ => 0) KeepsInvariant emptyPacket
        [.getWriteData 1, .appendByte 0x41, .getWriteData (-2)] ↔
      Meets (Within 64 emptyPacket.maxDataLen.toNat)
        (lengthAfter emptyPacket.maxDataLen.toNat) emptyPacket.dataLen.toNat
        [.getWriteData 1, .appendByte 0x41, .getWriteData (-2)] :=
  invariant_iff (by decide) (fun _ _ => 0) (by decide)
    [.getWriteData 1, .appendByte 0x41, .getWriteData (-2)]

/-- Claiming 17 of 16 bytes is not noticed. -/
theorem invariant_fails :
    ¬ ∀ (w : Nat) (crc8 : UInt8 → UInt8 → UInt8) (p : SizeT.Packet w),
      8 ≤ w → p.dataLen ≤ p.maxDataLen → ∀ ops : List (Op w),
        Along (apply crc8) KeepsInvariant p ops := by
  intro h
  have hkeeps := (h 64 (fun _ _ => 0) emptyPacket (by decide) (by decide)
    [.getWriteData 17]).1
  have hfits : (17 : BitVec 64) ≤ 16 := hkeeps.1.fits
  exact absurd hfits (by decide)

end DuinoBus.PacketInvariant
