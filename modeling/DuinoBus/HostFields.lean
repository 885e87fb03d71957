import DuinoBus.Py.Packer
import DuinoBus.Verified.Records

/-!
# Records of the host

A record of typed values is packed field by field and unpacked with the same
types.  `unpackAll_packAll` says what comes back, for every record: each value
at its place, except that an empty string comes back as a null character.
`round_trips_iff` concludes that a record comes back unchanged if and only if
it has no empty string.
-/

namespace DuinoBus.HostFields

open DuinoBus.Wire
open DuinoBus.Verified
open DuinoBus.Py

/-- What a field is unpacked as. -/
inductive FieldType where
  | u8
  | u16
  | u32
  | data (numBytes : Nat)
  | str
  deriving DecidableEq, Repr

/-- A field of a record. -/
inductive Field where
  | u8 (value : Nat)
  | u16 (value : Nat)
  | u32 (value : Nat)
  | data (bytes : List UInt8)
  | str (s : String)
  deriving DecidableEq, Repr

namespace Field

def type : Field → FieldType
  | .u8 _ => .u8
  | .u16 _ => .u16
  | .u32 _ => .u32
  | .data bytes => .data bytes.length
  | .str _ => .str

/-- A number fits its width, and a string and its null fit a length byte. -/
def InRange : Field → Prop
  | .u8 value => value < 256 ^ 1
  | .u16 value => value < 256 ^ 2
  | .u32 value => value < 256 ^ 4
  | .data _ => True
  | .str s => s.toUTF8.size ≤ 254

instance : DecidablePred InRange
  | .u8 value => inferInstanceAs (Decidable (value < 256 ^ 1))
  | .u16 value => inferInstanceAs (Decidable (value < 256 ^ 2))
  | .u32 value => inferInstanceAs (Decidable (value < 256 ^ 4))
  | .data _ => inferInstanceAs (Decidable True)
  | .str s => inferInstanceAs (Decidable (s.toUTF8.size ≤ 254))

/-- The bytes of a field. -/
def encode : Field → List UInt8
  | .u8 value => leBytes 1 value
  | .u16 value => leBytes 2 value
  | .u32 value => leBytes 4 value
  | .data bytes => bytes
  | .str s => UInt8.ofNat (Unpacker.cStr s).length :: Unpacker.cStr s

/-- What a field comes back as. -/
def readBack : Field → Field
  | .str s => .str (if s = "" then "\x00" else s)
  | f => f

end Field

/-- Pack a field. -/
def packField (p : Packer) : Field → Packer
  | .u8 value => p.packU8 value
  | .u16 value => p.packU16 value
  | .u32 value => p.packU32 value
  | .data bytes => p.packData bytes
  | .str s => p.packStr s

/-- Unpack a value of a type. -/
def unpackField (u : Unpacker) : FieldType → Except Fault (Field × Unpacker)
  | .u8 => do
      let (val, u) ← u.unpackU8
      return (.u8 val.toNat, u)
  | .u16 => .ok (.u16 u.unpackU16.1, u.unpackU16.2)
  | .u32 => .ok (.u32 u.unpackU32.1, u.unpackU32.2)
  | .data numBytes =>
      .ok (.data (u.unpackData numBytes).1, (u.unpackData numBytes).2)
  | .str => do
      let (str, u) ← u.unpackStr
      return (.str str, u)

/-- The data of a new packer after some fields. -/
def packAll (fields : List Field) : List UInt8 :=
  (fields.foldl packField (Packer.new none)).data

/-- Unpack some data with some types. -/
def unpackAll (data : List UInt8) (types : List FieldType) :
    Except Fault (List Field × Unpacker) :=
  feed unpackField (Unpacker.new data) types

/-- Unpacking with the types of the fields yields the fields, and there is no
more data. -/
def RoundTrips (fields : List Field) : Prop :=
  ∃ u, unpackAll (packAll fields) (fields.map Field.type) = .ok (fields, u) ∧
    u.moreData = false

/-! ## Packing -/

theorem data_packField (p : Packer) (f : Field) :
    (packField p f).data = p.data ++ f.encode := by
  cases f with
  | u8 value => exact p.data_packU8 value
  | u16 value => exact p.data_packU16 value
  | u32 value => exact p.data_packU32 value
  | data bytes => exact p.data_packData bytes
  | str s => exact p.data_packStr s

/-- A record is packed as the bytes of its fields, in order. -/
theorem packAll_eq (fields : List Field) :
    packAll fields = fields.flatMap Field.encode := by
  have hfold : ∀ p : Packer, (fields.foldl packField p).data =
      p.data ++ fields.flatMap Field.encode := by
    induction fields with
    | nil =>
        intro p
        rw [List.foldl_nil, List.flatMap_nil, List.append_nil]
    | cons f fields ih =>
        intro p
        rw [List.foldl_cons, ih, data_packField, List.flatMap_cons,
          List.append_assoc]
  exact hfold (Packer.new none)

/-! ## Unpacking -/

/-- **One field**: a request for its type reads it off what remains. -/
theorem reads_field {f : Field} (h : f.InRange) :
    Reads unpackField Unpacker.At Field.encode (fun f g => g = f.readBack) f
      f.type := by
  intro u rest hat
  cases f with
  | u8 value =>
      have hvalue : value < 256 := h
      obtain ⟨u', hunpack, hat'⟩ := Unpacker.At.unpackU8 hat
      refine ⟨_, u', ?_, rfl, hat'⟩
      have hbyte : (UInt8.ofNat value).toNat = value := by
        rw [UInt8.toNat_ofNat_of_lt' hvalue]
      simp only [unpackField, Field.type, hunpack, bind, Except.bind, pure,
        Except.pure, hbyte]
      rfl
  | u16 value =>
      obtain ⟨u', hunpack, hat'⟩ := Unpacker.At.unpackU16 hat h
      refine ⟨_, u', ?_, rfl, hat'⟩
      simp only [unpackField, Field.type, hunpack]
      rfl
  | u32 value =>
      obtain ⟨u', hunpack, hat'⟩ := Unpacker.At.unpackU32 hat h
      refine ⟨_, u', ?_, rfl, hat'⟩
      simp only [unpackField, Field.type, hunpack]
      rfl
  | data bytes =>
      obtain ⟨u', hunpack, hat'⟩ := Unpacker.At.unpackData hat
      refine ⟨_, u', ?_, rfl, hat'⟩
      have hunpack' : u.unpackData bytes.length = (bytes, u') := hunpack
      simp only [unpackField, Field.type, hunpack']
      rfl
  | str s =>
      obtain ⟨u', hunpack, hat'⟩ := Unpacker.At.unpackStr h hat
      refine ⟨_, u', ?_, rfl, hat'⟩
      simp only [unpackField, Field.type, hunpack, bind, Except.bind, pure,
        Except.pure]
      rfl

/-- **What comes back** of a record: every field at its place, and nothing
else. -/
theorem unpackAll_packAll {fields : List Field}
    (h : ∀ f ∈ fields, f.InRange) :
    ∃ u, unpackAll (packAll fields) (fields.map Field.type) =
        .ok (fields.map Field.readBack, u) ∧ u.moreData = false := by
  have hreads : List.Forall₂ (Reads unpackField Unpacker.At Field.encode
      (fun f g => g = f.readBack)) fields (fields.map Field.type) := by
    rw [List.forall₂_map_right_iff, List.forall₂_same]
    exact fun f hf => reads_field (h f hf)
  have hstart : (Unpacker.new (packAll fields)).At
      (fields.flatMap Field.encode ++ []) := by
    rw [List.append_nil, packAll_eq]
    exact Unpacker.at_new _
  obtain ⟨values, u, hfeed, hvalues, hend⟩ := feed_reads hreads hstart
  have hback : values = fields.map Field.readBack := by
    have hflip : List.Forall₂ (fun g f => g = Field.readBack f) values fields :=
      hvalues.flip
    rw [← List.forall₂_eq_eq_eq, List.forall₂_map_right_iff]
    exact hflip
  refine ⟨u, ?_, ?_⟩
  · rw [unpackAll, hfeed, hback]
  · rw [← Bool.not_eq_true, hend.moreData_iff]
    simp

/-- Only an empty string comes back as something else. -/
theorem readBack_eq_iff (f : Field) : f.readBack = f ↔ f ≠ .str "" := by
  by_cases hempty : f = .str ""
  · rw [hempty]
    decide
  · have hback : f.readBack = f := by
      cases f with
      | str s =>
          have hs : s ≠ "" := fun hs => hempty (congrArg Field.str hs)
          rw [Field.readBack, if_neg hs]
      | _ => rfl
    exact ⟨fun _ => hempty, fun _ => hback⟩

theorem map_readBack_iff (fields : List Field) :
    fields.map Field.readBack = fields ↔ .str "" ∉ fields := by
  have hmap : fields.map Field.readBack = fields.map id ↔
      ∀ f ∈ fields, f.readBack = id f := List.map_inj_left
  rw [List.map_id] at hmap
  rw [hmap]
  constructor
  · intro hall hempty
    exact (readBack_eq_iff _).mp (hall _ hempty) rfl
  · intro hempty f hf
    apply (readBack_eq_iff f).mpr
    rintro rfl
    exact hempty hf

/-- **When a record comes back.**  A record of fields in range is unpacked as
it was packed, with no data left, if and only if no field is the empty
string. -/
theorem round_trips_iff (fields : List Field)
    (h : ∀ f ∈ fields, f.InRange) :
    RoundTrips fields ↔ .str "" ∉ fields := by
  obtain ⟨u, hunpack, hmore⟩ := unpackAll_packAll h
  rw [← map_readBack_iff]
  constructor
  · rintro ⟨u', hback, _⟩
    rw [hunpack] at hback
    exact congrArg Prod.fst (Except.ok.inj hback)
  · intro hsame
    rw [hsame] at hunpack
    exact ⟨u, hunpack, hmore⟩

/-- A record with a field of each type comes back. -/
theorem round_trips_iff_fiveFields :
    RoundTrips [.u8 0x11, .u16 0x1122, .str "ABC", .data [0x00], .u32 0] ↔
      .str "" ∉
        [Field.u8 0x11, .u16 0x1122, .str "ABC", .data [0x00], .u32 0] :=
  round_trips_iff [.u8 0x11, .u16 0x1122, .str "ABC", .data [0x00], .u32 0]
    (by decide)

/-- The empty string does not come back. -/
theorem round_trips_fails :
    ¬ ∀ fields : List Field, (∀ f ∈ fields, f.InRange) →
      RoundTrips fields := by
  intro h
  obtain ⟨u, hback, _⟩ := h [.str ""] (by decide)
  obtain ⟨u', hunpack, _⟩ := unpackAll_packAll
    (show ∀ f ∈ [Field.str ""], f.InRange by decide)
  rw [hunpack] at hback
  have hsame : [Field.str ""].map Field.readBack = [Field.str ""] :=
    congrArg Prod.fst (Except.ok.inj hback)
  exact absurd hsame (by decide)

end DuinoBus.HostFields
