import DuinoBus.DevicePacks
import DuinoBus.Py.Packer
import DuinoBus.Verified.Records

/-!
# Three encoders of one format

Fields are packed by the device's `Packer`, appended by `Packet::append`, and
packed by the host.  `same_bytes` says that all three leave the same data, for
every record that fits the packet, from the same data.

Each encoder has a lemma that says what it adds for one field, and
`feed_writes_room` carries all of them to whole records.
-/

namespace DuinoBus.SameBytes

open DuinoBus.Wire
open DuinoBus.Verified
open DuinoBus.Cpp.Packer (lengthByte)
open DuinoBus.DeviceFields (Field packField cString)
open DuinoBus.DevicePacks (CString)

/-- A field as the host has it.  A string may be given by its bytes. -/
inductive HostField where
  | u8 (data : Nat)
  | u16 (data : Nat)
  | u32 (data : Nat)
  | str (s : Py.Packer.StrArg)
  deriving DecidableEq

/-- Host and device have the same number, or the same characters. -/
def Same : Field → HostField → Prop
  | .u8 value, .u8 data => data = value.toNat
  | .u16 value, .u16 data => data = value.toNat
  | .u32 value, .u32 data => data = value.toNat
  | .str ptr, .str s => s.toBytes = cString ptr
  | _, _ => False

/-- `Packet::append`. -/
def appendField (p : Cpp.Packet) (f : Field) :
    Except Fault (Unit × Cpp.Packet) :=
  match f with
  | .u8 value => (p.appendAs value).map ((), ·)
  | .u16 value => (p.appendAs value).map ((), ·)
  | .u32 value => (p.appendAs value).map ((), ·)
  | .str ptr => (p.appendStr ptr).map ((), ·)

/-- The host's `pack_u8`, `pack_u16`, `pack_u32` and `pack_str`. -/
def hostPackField (p : Py.Packer) (f : HostField) :
    Except Fault (Unit × Py.Packer) :=
  match f with
  | .u8 data => .ok ((), p.packU8 data)
  | .u16 data => .ok ((), p.packU16 data)
  | .u32 data => .ok ((), p.packU32 data)
  | .str s => .ok ((), p.packStrArg s)

/-! ## One field -/

section Device

variable {capacity : Nat} {cmd : UInt8} {bs : List UInt8}

/-- **The packer** packs a field that there is room for. -/
theorem packField_eq {p : Cpp.Packer} (h : p.packet.Holds capacity cmd bs)
    {f : Field} (hf : f.Packable)
    (hroom : bs.length + f.encode.length ≤ capacity) :
    ∃ done q, packField p f = .ok (done, q) ∧ done = true ∧
      q.packet.Holds capacity cmd (bs ++ f.encode) := by
  obtain ⟨done, q, hpack, hdone, hq⟩ := DeviceFields.packs_field h hf
  have hpacked : done = true := hdone.mpr hroom
  exact ⟨done, q, hpack, hpacked, hq hpacked⟩

/-- Appending a value of any type. -/
private theorem appendAs_eq {T : Type} [Pod T] {p : Cpp.Packet}
    (h : p.Holds capacity cmd bs) (value : T)
    (hroom : bs.length + (Pod.toBytes value).length ≤ capacity) :
    ∃ q, (p.appendAs value).map ((), ·) = .ok ((), q) ∧
      q.Holds capacity cmd (bs ++ Pod.toBytes value) := by
  obtain ⟨q, happend, hq⟩ := h.appendData (Pod.toBytes value) hroom
  refine ⟨q, ?_, hq⟩
  rw [Cpp.Packet.appendAs, happend]
  rfl

/-- Appending a string of at most 254 characters. -/
private theorem appendStr_eq {p : Cpp.Packet} (h : p.Holds capacity cmd bs)
    (s : CString) (hshort : s.chars.length ≤ 254)
    (hroom : bs.length + (s.chars.length + 2) ≤ capacity) :
    ∃ q, (p.appendStr s.ptr).map ((), ·) = .ok ((), q) ∧
      q.Holds capacity cmd
        (bs ++ UInt8.ofNat (s.chars.length + 1) :: (s.chars ++ [0])) := by
  have hbyte : lengthByte s.ptr = UInt8.ofNat (s.chars.length + 1) := by
    rw [s.lengthByte_eq, Nat.min_eq_left (by omega)]
  have htext := s.take_short hshort
  have hmemory : ¬ s.ptr.length < (lengthByte s.ptr).toNat := Nat.not_lt.mpr
    (Nat.le_trans s.toNat_lengthByte_le s.length_lt)
  obtain ⟨q, hlength, hq⟩ := h.appendData [lengthByte s.ptr]
    (by rw [List.length_singleton]; omega)
  obtain ⟨r, happend, hr⟩ := hq.appendData
    (s.ptr.take (lengthByte s.ptr).toNat) (by
      rw [htext, List.length_append, List.length_append,
        List.length_singleton, List.length_singleton]
      omega)
  rw [htext, hbyte, List.append_assoc, List.singleton_append] at hr
  refine ⟨r, ?_, hr⟩
  rw [lengthByte] at hlength happend hmemory
  simp only [Cpp.Packet.appendStr, Cpp.Packet.appendAs, toBytes_byte, hlength,
    bind, Except.bind, if_neg hmemory, happend]
  rfl

/-- **The packet** appends a field that there is room for. -/
theorem appendField_eq {p : Cpp.Packet} (h : p.Holds capacity cmd bs)
    {f : Field} (hf : f.Packable)
    (hroom : bs.length + f.encode.length ≤ capacity) :
    ∃ q, appendField p f = .ok ((), q) ∧
      q.Holds capacity cmd (bs ++ f.encode) := by
  cases f with
  | u8 value => exact appendAs_eq h value hroom
  | u16 value => exact appendAs_eq h value hroom
  | u32 value => exact appendAs_eq h value hroom
  | str ptr =>
      rw [Field.encode, List.length_cons, List.length_append,
        List.length_singleton] at hroom
      exact appendStr_eq h ⟨ptr, hf.1⟩ hf.2 hroom

end Device

/-- **The host** packs a field as the bytes that the device packs. -/
theorem hostPackField_eq (p : Py.Packer) {f : Field} {g : HostField}
    (hsame : Same f g) :
    ∃ q, hostPackField p g = .ok ((), q) ∧ q.data = p.data ++ f.encode := by
  cases f with
  | u8 value =>
      cases g with
      | u8 data =>
          have hdata : data = value.toNat := hsame
          refine ⟨_, rfl, ?_⟩
          rw [Py.Packer.data_packU8, hdata]
          rfl
      | _ => cases hsame
  | u16 value =>
      cases g with
      | u16 data =>
          have hdata : data = value.toNat := hsame
          refine ⟨_, rfl, ?_⟩
          rw [Py.Packer.data_packU16, hdata]
          rfl
      | _ => cases hsame
  | u32 value =>
      cases g with
      | u32 data =>
          have hdata : data = value.toNat := hsame
          refine ⟨_, rfl, ?_⟩
          rw [Py.Packer.data_packU32, hdata]
          rfl
      | _ => cases hsame
  | str ptr =>
      cases g with
      | str s =>
          have hchars : s.toBytes = cString ptr := hsame
          refine ⟨_, rfl, ?_⟩
          rw [Py.Packer.data_packStrArg, hchars]
          rfl
      | _ => cases hsame

/-! ## Whole records -/

/-- Some data and a record leave the same data with each of the three. -/
def SameData (packet : Cpp.Packet) (host : Py.Packer) (fields : List Field)
    (hostFields : List HostField) : Prop :=
  ∃ answers p packet' units host' units',
    feed packField ⟨packet⟩ fields = .ok (answers, p) ∧
    (∀ done ∈ answers, done = true) ∧
    feed appendField packet fields = .ok (units, packet') ∧
    feed hostPackField host hostFields = .ok (units', host') ∧
    p.packet.payload = host'.data ∧ packet'.payload = host'.data

/-- The host packs a whole record as the bytes that the device packs. -/
private theorem feed_hostPackField {fields : List Field}
    {hostFields : List HostField} (hsame : List.Forall₂ Same fields hostFields)
    (p : Py.Packer) :
    ∃ units q, feed hostPackField p hostFields = .ok (units, q) ∧
      q.data = p.data ++ fields.flatMap Field.encode := by
  induction hsame generalizing p with
  | nil => exact ⟨[], p, rfl, (List.append_nil _).symm⟩
  | cons hfirst _ ih =>
      obtain ⟨q, hpack, hq⟩ := hostPackField_eq p hfirst
      obtain ⟨units, r, hfeed, hr⟩ := ih q
      refine ⟨() :: units, r, by simp only [feed, hpack, hfeed], ?_⟩
      rw [hr, hq, List.flatMap_cons, List.append_assoc]

/-- **Host and device pack the same bytes.**  For every record of numbers and
of strings of at most 254 characters that fits the packet: packing it,
appending it and packing it on the host leave the same data, if there was the
same data before. -/
theorem same_bytes {packet : Cpp.Packet} {capacity : Nat} {cmd : UInt8}
    {bs : List UInt8} (h : packet.Holds capacity cmd bs) {fields : List Field}
    (hfields : ∀ f ∈ fields, f.Packable)
    (hroom : bs.length + (fields.flatMap Field.encode).length ≤ capacity)
    {hostFields : List HostField}
    (hsame : List.Forall₂ Same fields hostFields) :
    SameData packet ⟨bs⟩ fields hostFields := by
  have hpack : ∀ f ∈ fields, ∀ (p : Cpp.Packer) bs,
      p.packet.Holds capacity cmd bs → bs.length + f.encode.length ≤ capacity →
        ∃ done q, packField p f = .ok (done, q) ∧ done = true ∧
          q.packet.Holds capacity cmd (bs ++ f.encode) :=
    fun f hf p bs hp hroom => packField_eq hp (hfields f hf) hroom
  have happend : ∀ f ∈ fields, ∀ (p : Cpp.Packet) bs,
      p.Holds capacity cmd bs → bs.length + f.encode.length ≤ capacity →
        ∃ answer q, appendField p f = .ok (answer, q) ∧ True ∧
          q.Holds capacity cmd (bs ++ f.encode) := by
    intro f hf p bs hp hroom
    obtain ⟨q, hok, hq⟩ := appendField_eq hp (hfields f hf) hroom
    exact ⟨(), q, hok, trivial, hq⟩
  obtain ⟨answers, p, hfeed, hdone, hp⟩ :=
    feed_writes_room (s := (⟨packet⟩ : Cpp.Packer)) hpack h hroom
  obtain ⟨units, packet', hfeed', _, hpacket'⟩ :=
    feed_writes_room happend h hroom
  obtain ⟨units', host', hfeed'', hhost'⟩ := feed_hostPackField hsame ⟨bs⟩
  refine ⟨answers, p, packet', units, host', units', hfeed, hdone, hfeed',
    hfeed'', ?_, ?_⟩
  · rw [hp.payload, hhost']
  · rw [hpacket'.payload, hhost']

theorem same_bytes_multi :
    SameData DeviceFields.packetBefore ⟨[0xAA]⟩
      [.u8 0x11, .str [0x41, 0x42, 0x43, 0x00], .u16 0x5544]
      [.u8 0x11, .str (.bytes [0x41, 0x42, 0x43]), .u16 0x5544] := by
  have h : DeviceFields.packetBefore.Holds 16 0 [0xAA] :=
    ⟨rfl, rfl, by decide, rfl⟩
  exact same_bytes h (by decide) (by decide)
    (.cons rfl (.cons rfl (.cons rfl .nil)))

end DuinoBus.SameBytes
