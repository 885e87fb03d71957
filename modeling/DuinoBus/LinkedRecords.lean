import DuinoBus.HostFields
import DuinoBus.Link
import DuinoBus.SameBytes

/-!
# Records over the link

A record is packed on one side, sent as a packet, received on the other and
unpacked there with the same types.

`toDevice_iff`: what the host packs, the device unpacks as the same values if
and only if every number fits its width and no string contains a null.

`toHost_iff`: what the device packs, the host unpacks as the same values if and
only if every string is UTF-8 and not empty.
-/

namespace DuinoBus.LinkedRecords

open DuinoBus.Wire
open DuinoBus.Verified
open DuinoBus.DeviceFields (Field packField unpackField cString)
open DuinoBus.SameBytes (HostField hostPackField)

section Code

variable (crc8 : UInt8 → UInt8 → UInt8)

/-- The host packs fields into a new packet and sends it; the device receives
it and unpacks its data into `vars`. -/
def toDevice (encoder : Py.PacketEncoder) (decoder : Cpp.PacketDecoder)
    (command : UInt8) (fields : List HostField) (vars : List Field) :
    Except Fault (List (Bool × Field) × Cpp.Unpacker) := do
  let (_, packer) ← feed hostPackField (.new (some (.new command []))) fields
  let (_, bytes, _) ← encoder.encode crc8 (.new command packer.data)
  let (_, decoder) ← decoder.decodeAll crc8 bytes
  feed unpackField (.new decoder.packet) vars

/-- What the host unpacks a field of the device as. -/
def hostType : Field → HostFields.FieldType
  | .u8 _ => .u8
  | .u16 _ => .u16
  | .u32 _ => .u32
  | .str _ => .str

/-- The device packs fields into a packet and sends it; the host receives it
and unpacks its data with the types of the fields. -/
def toHost (encoder : Cpp.PacketEncoder) (byte : UInt8)
    (decoder : Py.PacketDecoder Py.Packet) (packet : Cpp.Packet)
    (fields : List Field) :
    Except Fault (List HostFields.Field × Py.Unpacker) := do
  let (_, packer) ← feed packField ⟨packet⟩ fields
  let (_, bytes, _) ← encoder.encode crc8 packer.packet byte
  let (_, decoder) ← decoder.decodeAll crc8 bytes
  feed HostFields.unpackField (.new decoder.packet.data) (fields.map hostType)

end Code

/-! ## From the host to the device -/

/-- The bytes of a field of the host. -/
def encode : HostField → List UInt8
  | .u8 data => leBytes 1 data
  | .u16 data => leBytes 2 data
  | .u32 data => leBytes 4 data
  | .str s => UInt8.ofNat (s.toBytes.length + 1) :: (s.toBytes ++ [0])

/-- A string and its null fit a length byte. -/
def Short : HostField → Prop
  | .str s => s.toBytes.length ≤ 254
  | _ => True

instance : DecidablePred Short
  | .u8 _ => inferInstanceAs (Decidable True)
  | .u16 _ => inferInstanceAs (Decidable True)
  | .u32 _ => inferInstanceAs (Decidable True)
  | .str s => inferInstanceAs (Decidable (s.toBytes.length ≤ 254))

/-- A number fits its width, and a string contains no null. -/
def Plain : HostField → Prop
  | .u8 data => data < 256 ^ 1
  | .u16 data => data < 256 ^ 2
  | .u32 data => data < 256 ^ 4
  | .str s => 0 ∉ s.toBytes

instance : DecidablePred Plain
  | .u8 data => inferInstanceAs (Decidable (data < 256 ^ 1))
  | .u16 data => inferInstanceAs (Decidable (data < 256 ^ 2))
  | .u32 data => inferInstanceAs (Decidable (data < 256 ^ 4))
  | .str s => inferInstanceAs (Decidable (0 ∉ s.toBytes))

/-- A variable has the type of a field. -/
def SameType : HostField → Field → Prop
  | .u8 _, .u8 _ => True
  | .u16 _, .u16 _ => True
  | .u32 _, .u32 _ => True
  | .str _, .str _ => True
  | _, _ => False

/-- The device has unpacked the field, as what it was on the host. -/
def Gets (f : HostField) (r : Bool × Field) : Prop :=
  r.1 = true ∧ SameBytes.Same r.2 f

/-- Every field is packed, as its bytes. -/
theorem data_hostPackField (fields : List HostField) (p : Py.Packer) :
    ∃ units q, feed hostPackField p fields = .ok (units, q) ∧
      q.data = p.data ++ fields.flatMap encode := by
  induction fields generalizing p with
  | nil => exact ⟨[], p, rfl, (List.append_nil _).symm⟩
  | cons f fields ih =>
      have hfirst : ∃ q, hostPackField p f = .ok ((), q) ∧
          q.data = p.data ++ encode f := by
        cases f with
        | u8 data => exact ⟨_, rfl, p.data_packU8 data⟩
        | u16 data => exact ⟨_, rfl, p.data_packU16 data⟩
        | u32 data => exact ⟨_, rfl, p.data_packU32 data⟩
        | str s => exact ⟨_, rfl, p.data_packStrArg s⟩
      obtain ⟨q, hpack, hq⟩ := hfirst
      obtain ⟨units, r, hfeed, hr⟩ := ih q
      refine ⟨() :: units, r, by simp only [feed, hpack, hfeed], ?_⟩
      rw [hr, hq, List.flatMap_cons, List.append_assoc]

/-- A string is found at a pointer to it if it contains no null. -/
theorem cString_eq_iff {ptr s : List UInt8} (h : s ++ [0] <+: ptr) :
    cString ptr = s ↔ 0 ∉ s := by
  obtain ⟨behind, rfl⟩ := h
  rw [List.append_assoc, List.singleton_append]
  constructor
  · intro hchars
    rw [← hchars]
    exact (DeviceFields.cString_split (List.mem_append_right s
      List.mem_cons_self)).1
  · intro hnull
    have hall : ∀ ch ∈ s, decide (ch ≠ 0) = true := by
      intro ch hch
      rw [decide_eq_true_iff]
      rintro rfl
      exact hnull hch
    rw [cString, List.takeWhile_append_of_pos hall]
    exact List.append_nil s

section Device

variable {packet : Cpp.Packet}

/-- Unpacking a number of any width, which `number` makes a field of. -/
private theorem readsIff_number {T : Type} [Pod T] {f : HostField}
    {old : T} (value : T) (number : T → Field)
    (hencode : Pod.toBytes value = encode f)
    (hunpack : ∀ u : Cpp.Unpacker, unpackField u (number old) = (do
      let (done, value, u) ← u.unpackAs old
      return ((done, number value), u)))
    (hgets : Gets f (true, number value) ↔ Plain f) :
    ReadsIff unpackField (Cpp.Unpacker.At packet) encode Gets Plain f
      (number old) := by
  intro u rest hat
  rw [← hencode] at hat
  obtain ⟨u', hread, hat'⟩ := Cpp.Unpacker.At.unpackAs hat old
  refine .inl ⟨(true, number value), u', ?_, hat', hgets⟩
  rw [hunpack, hread]
  rfl

/-- A number is the one of a variable exactly if it fits the width of it. -/
private theorem eq_mod_iff {n bound : Nat} (hbound : 0 < bound) :
    n = n % bound ↔ n < bound := by
  rw [eq_comm]
  exact Nat.mod_eq_iff_lt (Nat.ne_of_gt hbound)

/-- **The device unpacks a field** of the host, into a variable of its type. -/
theorem readsIff_device {f : HostField} {var : Field} (hshort : Short f)
    (htype : SameType f var) :
    ReadsIff unpackField (Cpp.Unpacker.At packet) encode Gets Plain f var := by
  cases f with
  | u8 data =>
      cases var with
      | u8 old =>
          refine readsIff_number (UInt8.ofNat data) Field.u8
            (leBytes_mod 1 data) (fun _ => rfl) ((and_iff_right rfl).trans ?_)
          show data = (UInt8.ofNat data).toNat ↔ _
          rw [UInt8.toNat_ofNat']
          exact eq_mod_iff (by decide)
      | _ => cases htype
  | u16 data =>
      cases var with
      | u16 old =>
          refine readsIff_number (UInt16.ofNat data) Field.u16
            (leBytes_mod 2 data) (fun _ => rfl) ((and_iff_right rfl).trans ?_)
          show data = (UInt16.ofNat data).toNat ↔ _
          rw [UInt16.toNat_ofNat']
          exact eq_mod_iff (by decide)
      | _ => cases htype
  | u32 data =>
      cases var with
      | u32 old =>
          refine readsIff_number (UInt32.ofNat data) Field.u32
            (leBytes_mod 4 data) (fun _ => rfl) ((and_iff_right rfl).trans ?_)
          show data = (UInt32.ofNat data).toNat ↔ _
          rw [UInt32.toNat_ofNat']
          exact eq_mod_iff (by decide)
      | _ => cases htype
  | str s =>
      cases var with
      | str old =>
          intro u rest hat
          obtain ⟨ptr, u', hunpack, hin, hat'⟩ :=
            Cpp.Unpacker.At.unpackStr hshort hat old
          refine .inl ⟨(true, .str ptr), u', ?_, hat', ?_⟩
          · simp only [unpackField, hunpack, bind, Except.bind]
            rfl
          · rw [Plain, ← cString_eq_iff hin.2]
            exact ⟨fun hgets => hgets.2.symm, fun hsame => ⟨rfl, hsame.symm⟩⟩
      | _ => cases htype

end Device

/-- A decoder that is not inside a frame is ready for one. -/
theorem ready_of_state {decoder : Cpp.PacketDecoder}
    (hstate : decoder.state = .idle ∨ decoder.state = .command)
    (hescape : decoder.escape = false) :
    ∃ ph, decoder.Tracks decoder.packet.maxDataLen ph ∧ ph.Ready := by
  rcases hstate with hidle | hcommand
  · exact ⟨.idle, ⟨hidle, hescape, rfl⟩, .inl rfl⟩
  · exact ⟨.command false, ⟨hcommand, hescape, rfl⟩, .inr rfl⟩

/-- **From the host to the device.**  Strings that fit their length byte, and a
packet that fits the device's: what the host packs is unpacked as the same
values, with nothing behind them, if and only if every number fits its width
and no string contains a null. -/
theorem toDevice_iff (crc8 : UInt8 → UInt8 → UInt8)
    (encoder : Py.PacketEncoder) (decoder : Cpp.PacketDecoder)
    (hstate : decoder.state = .idle ∨ decoder.state = .command)
    (hescape : decoder.escape = false)
    (command : UInt8) (fields : List HostField) (hshort : ∀ f ∈ fields, Short f)
    (hroom : (fields.flatMap encode).length + 1 ≤ decoder.packet.maxDataLen)
    (vars : List Field) (htypes : List.Forall₂ SameType fields vars) :
    (∃ answers u, toDevice crc8 encoder decoder command fields vars =
        .ok (answers, u) ∧ List.Forall₂ Gets fields answers ∧ u.Exhausted) ↔
      ∀ f ∈ fields, Plain f := by
  obtain ⟨units, packer, hpack, hdata⟩ :=
    data_hostPackField fields (.new (some (.new command [])))
  obtain ⟨encoder', hencode⟩ := Py.PacketEncoder.encode_eq crc8 encoder
    (.new command packer.data)
  obtain ⟨ph, htracks, hready⟩ := ready_of_state hstate hescape
  have hbytes : packer.data = fields.flatMap encode := hdata
  obtain ⟨decoder', hdecode, hholds⟩ := Cpp.PacketDecoder.decodeAll_frame crc8 _
    htracks hready command packer.data (by rw [hbytes]; exact hroom)
  have hcode : toDevice crc8 encoder decoder command fields vars =
      feed unpackField (.new decoder'.packet) vars := by
    simp only [toDevice, hpack, hencode, bind, Except.bind]
    rw [show frame crc8 (Py.Packet.new command packer.data).cmd
      (Py.Packet.new command packer.data).data = frame crc8 command packer.data
      from rfl, hdecode]
  have hat := Cpp.Unpacker.at_setData hholds (.new decoder'.packet)
  rw [hbytes, ← List.append_nil (fields.flatMap encode)] at hat
  have hreads : List.Forall₂ (ReadsIff unpackField
      (Cpp.Unpacker.At decoder'.packet) encode Gets Plain) fields vars :=
    ((List.forall₂_and_left fields vars).mpr ⟨hshort, htypes⟩).imp
      fun f var h => readsIff_device h.1 h.2
  rw [hcode]
  exact feed_reads_iff hreads (fun u hend => hend.exhausted) hat

/-- Two numbers and a string, packed by the host. -/
def threeFields : List HostField :=
  [.u16 0x1234, .str (.str "AB"), .u32 0xC0DB]

theorem toDevice_iff_threeFields :
    ∃ answers u, toDevice crc8Poly07 .new (.new (.new (List.replicate 16 0) 0))
        0x40 threeFields [.u16 0, .str [], .u32 0] = .ok (answers, u) ∧
      List.Forall₂ Gets threeFields answers ∧ u.Exhausted :=
  (toDevice_iff crc8Poly07 .new (.new (.new (List.replicate 16 0) 0)) (.inl rfl)
    rfl 0x40 threeFields (by decide) (by decide) [.u16 0, .str [], .u32 0]
    (.cons trivial (.cons trivial (.cons trivial .nil)))).mpr (by decide)

/-! ## From the device to the host -/

/-- A string is UTF-8, and not empty. -/
def Readable : Field → Prop
  | .str ptr => ∃ s : String, s ≠ "" ∧ s.toUTF8.data.toList = cString ptr
  | _ => True

/-- The host has what the device has. -/
def Got : Field → HostFields.Field → Prop
  | .u8 value, .u8 data => data = value.toNat
  | .u16 value, .u16 data => data = value.toNat
  | .u32 value, .u32 data => data = value.toNat
  | .str ptr, .str s => s.toUTF8.data.toList = cString ptr
  | _, _ => False

theorem decodeUtf8_eq_ok_iff (bytes : List UInt8) (s : String) :
    Py.Unpacker.decodeUtf8 bytes = .ok s ↔ s.toUTF8.data.toList = bytes := by
  constructor
  · intro hdecode
    rw [Py.Unpacker.decodeUtf8, String.fromUTF8?] at hdecode
    by_cases hvalid : ByteArray.IsValidUTF8 ⟨bytes.toArray⟩
    · rw [dif_pos hvalid] at hdecode
      cases hdecode
      rfl
    · rw [dif_neg hvalid] at hdecode
      cases hdecode
  · rintro rfl
    exact Py.Unpacker.decodeUtf8_toUTF8 s

/-- The host unpacks some characters with their length byte and their null. -/
theorem unpackStr_text {u : Py.Unpacker} {chars rest : List UInt8}
    (hshort : chars.length ≤ 254) (hne : chars ≠ [])
    (h : u.At (UInt8.ofNat (chars.length + 1) :: (chars ++ [0]) ++ rest)) :
    ∃ u', u.unpackStr = (Py.Unpacker.decodeUtf8 chars).map (·, u') ∧
      u'.At rest := by
  obtain ⟨u₁, hlength, h₁⟩ := h.unpackU8
  have hcount : (UInt8.ofNat (chars.length + 1)).toNat =
      (chars ++ [0]).length := by
    rw [List.length_append, List.length_singleton]
    exact UInt8.toNat_ofNat_of_lt' (show chars.length + 1 < 256 by omega)
  obtain ⟨u₂, htext, h₂⟩ := h₁.unpackData
  have hlong : 1 < (chars ++ [0]).length := by
    have hpos := List.length_pos_iff.mpr hne
    rw [List.length_append, List.length_singleton]
    omega
  refine ⟨u₂, ?_, h₂⟩
  simp only [Py.Unpacker.unpackStr, hlength, bind, Except.bind, hcount, htext,
    if_pos hlong, List.dropLast_concat]
  cases Py.Unpacker.decodeUtf8 chars <;> rfl

/-- A string without bytes is the empty one. -/
private theorem eq_empty {s : String} (h : s.toUTF8.data.toList = []) :
    s = "" := by
  apply String.utf8ByteSize_eq_zero_iff.mp
  show s.toUTF8.data.toList.length = 0
  rw [h]
  rfl

/-- **The host unpacks a string** of the device. -/
theorem readsIff_str {ptr : List UInt8} (hf : (Field.str ptr).Packable) :
    ReadsIff HostFields.unpackField Py.Unpacker.At Field.encode Got Readable
      (.str ptr) .str := by
  intro u rest hat
  by_cases hempty : cString ptr = []
  · -- the empty string comes as its null
    rw [Field.encode, hempty] at hat
    obtain ⟨o, u', hread, ho, hat'⟩ := HostFields.reads_field
      (f := .str "") (by decide) u rest hat
    refine .inl ⟨o, u', hread, hat', iff_of_false ?_ ?_⟩
    · intro hgot
      rw [ho, show (HostFields.Field.str "").readBack = .str "\x00" from rfl,
        Got, hempty] at hgot
      cases hgot
    · rintro ⟨s, hne, hchars⟩
      rw [hempty] at hchars
      exact hne (eq_empty hchars)
  · obtain ⟨u', hread, hat'⟩ := unpackStr_text hf.2 hempty hat
    cases hdecode : Py.Unpacker.decodeUtf8 (cString ptr) with
    | error e =>
        rw [hdecode] at hread
        refine .inr ⟨⟨e, ?_⟩, ?_⟩
        · simp only [HostFields.unpackField, hread]
          rfl
        · rintro ⟨s, _, hchars⟩
          rw [(decodeUtf8_eq_ok_iff _ s).mpr hchars] at hdecode
          cases hdecode
    | ok s =>
        rw [hdecode] at hread
        have hchars := (decodeUtf8_eq_ok_iff _ s).mp hdecode
        refine .inl ⟨.str s, u', ?_, hat', iff_of_true hchars ⟨s, ?_, hchars⟩⟩
        · simp only [HostFields.unpackField, hread]
          rfl
        · rintro rfl
          exact hempty hchars.symm

/-- **The host unpacks a field** of the device. -/
theorem readsIff_host {f : Field} (hf : f.Packable) :
    ReadsIff HostFields.unpackField Py.Unpacker.At Field.encode Got Readable f
      (hostType f) := by
  have hnumber : ∀ g : HostFields.Field, g.InRange → g.readBack = g →
      Field.encode f = g.encode → g.type = hostType f → Got f g → Readable f →
      ReadsIff HostFields.unpackField Py.Unpacker.At Field.encode Got Readable
        f (hostType f) := by
    intro g hrange hback hencode htype hgot hreadable u rest hat
    rw [hencode] at hat
    obtain ⟨o, u', hread, ho, hat'⟩ := HostFields.reads_field hrange u rest hat
    rw [htype] at hread
    rw [hback] at ho
    exact .inl ⟨o, u', hread, hat', iff_of_true (ho ▸ hgot) hreadable⟩
  cases f with
  | u8 value =>
      exact hnumber (.u8 value.toNat) value.toNat_lt rfl rfl rfl rfl trivial
  | u16 value =>
      exact hnumber (.u16 value.toNat) value.toNat_lt rfl rfl rfl rfl trivial
  | u32 value =>
      exact hnumber (.u32 value.toNat) value.toNat_lt rfl rfl rfl rfl trivial
  | str ptr => exact readsIff_str hf

/-- **From the device to the host.**  A record that fits the packet and the
host's decoder: what the device packs is unpacked as the same values, with no
data behind them, if and only if every string is UTF-8 and not empty. -/
theorem toHost_iff (crc8 : UInt8 → UInt8 → UInt8)
    (encoder : Cpp.PacketEncoder) (byte : UInt8)
    (decoder : Py.PacketDecoder Py.Packet)
    (hstate : decoder.state = .idle ∨ decoder.state = .command)
    (hescape : decoder.escape = false) {packet : Cpp.Packet} {capacity : Nat}
    {command : UInt8} (hpacket : packet.Holds capacity command [])
    {fields : List Field} (hfields : ∀ f ∈ fields, f.Packable)
    (hroom : (fields.flatMap Field.encode).length ≤ min capacity 255) :
    (∃ values u, toHost crc8 encoder byte decoder packet fields =
        .ok (values, u) ∧ List.Forall₂ Got fields values ∧
      u.moreData = false) ↔
      ∀ f ∈ fields, Readable f := by
  have hfield : ∀ f ∈ fields, ∀ (p : Cpp.Packer) bs,
      p.packet.Holds capacity command bs →
        bs.length + f.encode.length ≤ capacity →
        ∃ done q, packField p f = .ok (done, q) ∧ done = true ∧
          q.packet.Holds capacity command (bs ++ f.encode) :=
    fun f hf p bs hp hroom => SameBytes.packField_eq hp (hfields f hf) hroom
  obtain ⟨answers, packer, hpack, _, hpacked⟩ :=
    feed_writes_room (s := (⟨packet⟩ : Cpp.Packer)) hfield hpacket
      (by rw [List.length_nil]; omega)
  rw [List.nil_append] at hpacked
  obtain ⟨q, encoder', hencode, _⟩ := Cpp.PacketEncoder.encode_eq crc8 encoder
    hpacked byte
  have hready : ∃ ph, decoder.Tracks ph ∧ ph.Ready := by
    rcases hstate with hidle | hcommand
    · exact ⟨.idle, ⟨hidle, hescape⟩, .inl rfl⟩
    · exact ⟨.command false, ⟨hcommand, hescape⟩, .inr rfl⟩
  obtain ⟨ph, htracks, hready⟩ := hready
  have hmax : Py.Packet.MAX_DATA_LEN = 256 := rfl
  obtain ⟨decoder', hdecode, _, hdata⟩ := Py.PacketDecoder.decodeAll_frame crc8
    htracks hready command (fields.flatMap Field.encode) (by omega)
  have hcode : toHost crc8 encoder byte decoder packet fields =
      feed HostFields.unpackField (.new (fields.flatMap Field.encode))
        (fields.map hostType) := by
    simp only [toHost, hpack, hencode, bind, Except.bind, hdecode, hdata]
  have hat := Py.Unpacker.at_new (fields.flatMap Field.encode ++ [])
  rw [List.append_nil] at hat
  have hreads : List.Forall₂ (ReadsIff HostFields.unpackField Py.Unpacker.At
      Field.encode Got Readable) fields (fields.map hostType) := by
    rw [List.forall₂_map_right_iff, List.forall₂_same]
    exact fun f hf => readsIff_host (hfields f hf)
  rw [hcode]
  refine feed_reads_iff hreads (fun u (hend : u.At []) => ?_) ?_
  · rw [← Bool.not_eq_true, hend.moreData_iff]
    simp
  · rw [List.append_nil]
    exact hat

theorem toHost_iff_threeFields :
    ∃ values u, toHost crc8Poly07 (.new 0) 0 (.new (.new 0 []))
        (.new (List.replicate 16 0) 0)
        [.u8 0xC0, .str [0x41, 0x42, 0x00], .u16 0x5544] = .ok (values, u) ∧
      List.Forall₂ Got [.u8 0xC0, .str [0x41, 0x42, 0x00], .u16 0x5544]
        values ∧ u.moreData = false := by
  have hpacket : (Cpp.Packet.new (List.replicate 16 0) 0).Holds 16 0 [] :=
    ⟨rfl, rfl, by decide, rfl⟩
  refine (toHost_iff crc8Poly07 (.new 0) 0 (.new (.new 0 [])) (.inl rfl) rfl
    hpacket (by decide) (by decide)).mpr ?_
  rw [List.forall_mem_cons, List.forall_mem_cons, List.forall_mem_cons]
  exact ⟨trivial, ⟨"AB", by decide, rfl⟩, trivial, List.forall_mem_nil _⟩

end DuinoBus.LinkedRecords
