import DuinoBus.Cpp.Packer
import DuinoBus.Cpp.Unpacker
import DuinoBus.Verified.Records

/-!
# Records of the device

A record of typed values is packed into a packet behind what it contains and
unpacked from there with the same types.  `packs_field` and `reads_field` say
what one field does, and `pack_unpack` what a whole record does, for every
capacity and every initial content.
-/

namespace DuinoBus.DeviceFields

open DuinoBus.Wire
open DuinoBus.Verified
open DuinoBus.Cpp

inductive FieldType where
  | u8
  | u16
  | u32
  | str
  deriving DecidableEq, Repr

/-- A field of a record, or a variable of its type with its contents.  A
string is a pointer to its first character. -/
inductive Field where
  | u8 (value : UInt8)
  | u16 (value : UInt16)
  | u32 (value : UInt32)
  | str (ptr : List UInt8)
  deriving DecidableEq, Repr

/-- The string that a pointer points to. -/
def cString (ptr : List UInt8) : List UInt8 := ptr.takeWhile (· ≠ 0)

namespace Field

def type : Field → FieldType
  | .u8 _ => .u8
  | .u16 _ => .u16
  | .u32 _ => .u32
  | .str _ => .str

/-- A string ends in a null, after at most 254 characters. -/
def Packable : Field → Prop
  | .str ptr => 0 ∈ ptr ∧ (cString ptr).length ≤ 254
  | _ => True

instance : DecidablePred Packable
  | .u8 _ => inferInstanceAs (Decidable True)
  | .u16 _ => inferInstanceAs (Decidable True)
  | .u32 _ => inferInstanceAs (Decidable True)
  | .str ptr =>
      inferInstanceAs (Decidable (0 ∈ ptr ∧ (cString ptr).length ≤ 254))

/-- The bytes of a field. -/
def encode : Field → List UInt8
  | .u8 value => Pod.toBytes value
  | .u16 value => Pod.toBytes value
  | .u32 value => Pod.toBytes value
  | .str ptr =>
      UInt8.ofNat ((cString ptr).length + 1) :: (cString ptr ++ [0])

/-- What was unpacked is what was packed: the same number, or a pointer to the
same string inside the packet. -/
def Same (packet : Packet) : Field → Field → Prop
  | .u8 a, .u8 b => a = b
  | .u16 a, .u16 b => a = b
  | .u32 a, .u32 b => a = b
  | .str a, .str b => Unpacker.Designates packet b (cString a)
  | _, _ => False

end Field

/-- Pack a field. -/
def packField (p : Packer) : Field → Except Fault (Bool × Packer)
  | .u8 value => p.pack value
  | .u16 value => p.pack value
  | .u32 value => p.pack value
  | .str ptr => p.packStr ptr

/-- Unpack into a variable. -/
def unpackField (u : Unpacker) :
    Field → Except Fault ((Bool × Field) × Unpacker)
  | .u8 value => do
      let (done, value, u) ← u.unpackAs value
      return ((done, .u8 value), u)
  | .u16 value => do
      let (done, value, u) ← u.unpackAs value
      return ((done, .u16 value), u)
  | .u32 value => do
      let (done, value, u) ← u.unpackAs value
      return ((done, .u32 value), u)
  | .str ptr => do
      let (done, ptr, u) ← u.unpackStr ptr
      return ((done, .str ptr), u)

/-- Packing the field succeeds exactly if there is space for it. -/
def PacksIfRoom (packet : Packet) (f : Field) : Prop :=
  ∃ done q, packField ⟨packet⟩ f = .ok (done, q) ∧
    (done = true ↔ f.encode.length ≤ packet.getSpaceRemaining)

/-- Every field of the record is packed, which leaves `packet'`. -/
def PacksAll (packet : Packet) (fields : List Field) (packet' : Packet) :
    Prop :=
  ∃ answers, feed packField ⟨packet⟩ fields = .ok (answers, ⟨packet'⟩) ∧
    ∀ done ∈ answers, done = true

/-- Any unpacker, set to the packet and moved past some bytes, unpacks the
fields into vars of their types, and nothing after them. -/
def UnpacksAll (packet : Packet) (skip : Nat) (fields : List Field) : Prop :=
  ∀ (u : Unpacker) (old : List UInt8) (vars : List Field),
    vars.map Field.type = fields.map Field.type →
    ∃ ptr u₁ answers u₂,
      (u.setData packet).unpackData skip old = (true, ptr, u₁) ∧
      feed unpackField u₁ vars = .ok (answers, u₂) ∧
      List.Forall₂ (fun f r => r.1 = true ∧ f.Same packet r.2) fields
        answers ∧
      u₂.Exhausted

/-! ## One field -/

/-- The memory from a string on: its characters, the null, and the rest. -/
theorem cString_split {ptr : List UInt8} (h : 0 ∈ ptr) :
    0 ∉ cString ptr ∧ ∃ rest, ptr = cString ptr ++ 0 :: rest := by
  induction ptr with
  | nil => cases h
  | cons ch ptr ih =>
      by_cases hnull : ch = 0
      · subst hnull
        exact ⟨(fun h => by cases h), ptr, rfl⟩
      · have hin : 0 ∈ ptr := by
          rcases List.mem_cons.mp h with hch | hin
          · exact absurd hch.symm hnull
          · exact hin
        obtain ⟨hnot, rest, hrest⟩ := ih hin
        have hcons : cString (ch :: ptr) = ch :: cString ptr :=
          List.takeWhile_cons_of_pos (decide_eq_true hnull)
        rw [hcons]
        refine ⟨?_, rest, congrArg (ch :: ·) hrest⟩
        rw [List.mem_cons, not_or]
        exact ⟨fun h => hnull h.symm, hnot⟩

section Fields

variable {packet : Packet} {capacity : Nat} {cmd : UInt8} {bs : List UInt8}

/-- **Packing a field.** -/
theorem packs_field {p : Packer} (h : p.packet.Holds capacity cmd bs)
    {f : Field} (hf : f.Packable) :
    Packer.Packs capacity cmd bs f.encode (packField p f) := by
  cases f with
  | u8 value => exact Packer.packs_pack h value
  | u16 value => exact Packer.packs_pack h value
  | u32 value => exact Packer.packs_pack h value
  | str ptr =>
      obtain ⟨hnull, rest, hptr⟩ := cString_split hf.1
      have hpacks := Packer.packs_packStr h hnull hf.2 rest
      rw [← hptr] at hpacks
      exact hpacks

/-- Unpacking a number of any width, which `number` makes a field of. -/
private theorem reads_number {T : Type} [Pod T] {value old : T}
    (number : T → Field)
    (hencode : (number value).encode = Pod.toBytes value)
    (hunpack : ∀ u : Unpacker, unpackField u (number old) = (do
      let (done, value, u) ← u.unpackAs old
      return ((done, number value), u)))
    (hsame : (number value).Same packet (number value)) :
    Reads unpackField (Unpacker.At packet) Field.encode
      (fun f r => r.1 = true ∧ f.Same packet r.2) (number value)
      (number old) := by
  intro u rest hat
  rw [hencode] at hat
  obtain ⟨u', hread, hat'⟩ := Unpacker.At.unpackAs hat old
  refine ⟨(true, number value), u', ?_, ⟨rfl, hsame⟩, hat'⟩
  rw [hunpack, hread]
  rfl

/-- **Unpacking a field** into a variable of its type. -/
theorem reads_field {f var : Field} (hf : f.Packable)
    (htype : var.type = f.type) :
    Reads unpackField (Unpacker.At packet) Field.encode
      (fun f r => r.1 = true ∧ f.Same packet r.2) f var := by
  cases f with
  | u8 value =>
      cases var with
      | u8 old =>
          exact reads_number Field.u8 rfl (fun _ => rfl) rfl
      | _ => cases htype
  | u16 value =>
      cases var with
      | u16 old =>
          exact reads_number Field.u16 rfl (fun _ => rfl) rfl
      | _ => cases htype
  | u32 value =>
      cases var with
      | u32 old =>
          exact reads_number Field.u32 rfl (fun _ => rfl) rfl
      | _ => cases htype
  | str ptr =>
      cases var with
      | str old =>
          intro u rest hat
          obtain ⟨ptr', u', hunpack, hin, hat'⟩ :=
            Unpacker.At.unpackStr hf.2 hat old
          refine ⟨(true, .str ptr'), u', ?_, ⟨rfl, hin⟩, hat'⟩
          simp only [unpackField, hunpack, bind, Except.bind]
          rfl
      | _ => cases htype

/-! ## Whole records -/

theorem packsIfRoom (h : packet.dataLen ≤ packet.maxDataLen) {f : Field}
    (hf : f.Packable) : PacksIfRoom packet f := by
  have hholds := Packet.holds_self h
  obtain ⟨done, q, hpack, hdone, _⟩ :=
    packs_field (p := ⟨packet⟩) hholds hf
  have hlen := hholds.dataLen
  refine ⟨done, q, hpack, ?_⟩
  rw [hdone, Packet.getSpaceRemaining]
  omega

/-- A record that was packed is the bytes of its fields, in order. -/
theorem holds_of_packsAll (h : packet.Holds capacity cmd bs)
    {fields : List Field} (hfields : ∀ f ∈ fields, f.Packable)
    {packet' : Packet} (hpacks : PacksAll packet fields packet') :
    packet'.Holds capacity cmd (bs ++ fields.flatMap Field.encode) := by
  obtain ⟨answers, hfeed, hall⟩ := hpacks
  have hfield : ∀ f ∈ fields, ∀ (p : Packer) bs done q,
      p.packet.Holds capacity cmd bs → packField p f = .ok (done, q) →
        done = true → q.packet.Holds capacity cmd (bs ++ f.encode) := by
    intro f hf p bs done q hp hpack hdone
    obtain ⟨done', q', hpack', _, hq⟩ := packs_field hp (hfields f hf)
    rw [hpack] at hpack'
    cases hpack'
    exact hq hdone
  exact feed_writes hfield h hfeed hall

/-- The fields of a record are unpacked from where they were packed. -/
theorem unpacksAll_of_holds {fields : List Field}
    (hfields : ∀ f ∈ fields, f.Packable)
    (h : packet.Holds capacity cmd (bs ++ fields.flatMap Field.encode)) :
    UnpacksAll packet bs.length fields := by
  intro u old vars htypes
  obtain ⟨ptr, u₁, hskip, _, hat⟩ := (Unpacker.at_setData h u).unpackData old
  have hreads : List.Forall₂ (Reads unpackField (Unpacker.At packet)
      Field.encode (fun f r => r.1 = true ∧ f.Same packet r.2)) fields
      vars := by
    rw [← List.forall₂_eq_eq_eq, List.forall₂_map_left_iff,
      List.forall₂_map_right_iff] at htypes
    have hboth := (List.forall₂_and_left fields vars).mpr
      ⟨hfields, htypes.flip⟩
    exact hboth.imp fun f var h => reads_field h.1 h.2
  rw [← List.append_nil (fields.flatMap Field.encode)] at hat
  obtain ⟨answers, u₂, hfeed, hsame, hend⟩ := feed_reads hreads hat
  exact ⟨ptr, u₁, answers, u₂, hskip, hfeed, hsame, hend.exhausted⟩

end Fields

/-- **Packing and unpacking.**  For every packet and record: a field is packed
exactly if the remaining space is at least its size, and when all fields were
packed, they are unpacked behind the initial content with the same values, and
every further read is refused. -/
theorem pack_unpack {packet : Packet} {capacity : Nat} {cmd : UInt8}
    {init : List UInt8} (h : packet.Holds capacity cmd init) :
    (∀ f : Field, f.Packable → PacksIfRoom packet f) ∧
      ∀ fields : List Field, (∀ f ∈ fields, f.Packable) →
        ∀ packet', PacksAll packet fields packet' →
          UnpacksAll packet' init.length fields := by
  constructor
  · intro f hf
    apply packsIfRoom _ hf
    exact h.fits
  · intro fields hfields packet' hpacks
    exact unpacksAll_of_holds hfields (holds_of_packsAll h hfields hpacks)

/-- A packet with a byte of data and room for 15 more. -/
def packetBefore : Packet := ⟨0, 16, 1, 0xAA :: List.replicate 15 0, 0, rfl⟩

/-- The same packet with a number, a string and another number. -/
def packetAfter : Packet :=
  ⟨0, 16, 9, [0xAA, 0x11, 0x04, 0x41, 0x42, 0x43, 0x00, 0x44, 0x55] ++
    List.replicate 7 0, 0, rfl⟩

theorem pack_unpack_multi :
    PacksIfRoom packetBefore (.str [0x00]) ∧
      UnpacksAll packetAfter 1
        [.u8 0x11, .str [0x41, 0x42, 0x43, 0x00], .u16 0x5544] := by
  have h : packetBefore.Holds 16 0 [0xAA] := ⟨rfl, rfl, by decide, rfl⟩
  have hpacks : PacksAll packetBefore
      [.u8 0x11, .str [0x41, 0x42, 0x43, 0x00], .u16 0x5544] packetAfter :=
    ⟨[true, true, true], rfl, by decide⟩
  exact ⟨(pack_unpack h).1 _ (by decide),
    (pack_unpack h).2 _ (by decide) _ hpacks⟩

end DuinoBus.DeviceFields
