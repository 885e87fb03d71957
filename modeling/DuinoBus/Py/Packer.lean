import DuinoBus.Py.Packet
import DuinoBus.Py.Unpacker

/-!
# The host's packer

`Packer` appends values to a `bytearray`.  Numbers are not checked: of each
the low bytes are packed.
-/

namespace DuinoBus.Py

open DuinoBus.Wire
open DuinoBus.Verified

structure Packer where
  data : List UInt8
  deriving DecidableEq

namespace Packer

/-- A packer appends to the data of its packet, if it has one. -/
def new : Option Packet → Packer
  | none => ⟨[]⟩
  | some pkt => ⟨pkt.data⟩

/-- `data & 0xff`. -/
def lowByte (data : Nat) : UInt8 := UInt8.ofNat (data &&& 0xff)

def packU8 (p : Packer) (data : Nat) : Packer := ⟨p.data ++ [lowByte data]⟩

def packU16 (p : Packer) (data : Nat) : Packer :=
  ⟨p.data ++ [lowByte data, lowByte (data >>> 8)]⟩

def packU32 (p : Packer) (data : Nat) : Packer :=
  ⟨p.data ++ [lowByte data, lowByte (data >>> 8), lowByte (data >>> 16),
    lowByte (data >>> 24)]⟩

def packData (p : Packer) (s : List UInt8) : Packer := ⟨p.data ++ s⟩

/-- `pack_str` of bytes. -/
def packBytes (p : Packer) (s : List UInt8) : Packer :=
  ((p.packU8 (s.length + 1)).packData s).packU8 0

/-- An 8-bit length, the string, and a terminating null. -/
def packStr (p : Packer) (s : String) : Packer :=
  p.packBytes s.toUTF8.data.toList

/-- What `pack_str` takes: a string, which is encoded first, or bytes. -/
inductive StrArg where
  | str (s : String)
  | bytes (s : List UInt8)
  deriving DecidableEq

def StrArg.toBytes : StrArg → List UInt8
  | .str s => s.toUTF8.data.toList
  | .bytes s => s

/-- `pack_str`. -/
def packStrArg (p : Packer) : StrArg → Packer
  | .str s => p.packStr s
  | .bytes s => p.packBytes s

/-! ## What is packed -/

theorem lowByte_eq (data : Nat) : lowByte data = UInt8.ofNat data := by
  apply UInt8.toNat_inj.mp
  have hmask : data &&& 0xff = data % 256 := Nat.and_two_pow_sub_one_eq_mod data 8
  rw [lowByte, hmask, UInt8.toNat_ofNat', UInt8.toNat_ofNat', Nat.mod_mod]

theorem data_packU8 (p : Packer) (data : Nat) :
    (p.packU8 data).data = p.data ++ leBytes 1 data := by
  rw [packU8, lowByte_eq]
  rfl

theorem data_packU16 (p : Packer) (data : Nat) :
    (p.packU16 data).data = p.data ++ leBytes 2 data := by
  rw [packU16, lowByte_eq, lowByte_eq, Nat.shiftRight_eq_div_pow]
  rfl

theorem data_packU32 (p : Packer) (data : Nat) :
    (p.packU32 data).data = p.data ++ leBytes 4 data := by
  simp only [packU32, lowByte_eq, Nat.shiftRight_eq_div_pow, leBytes,
    Nat.div_div_eq_div_mul]

theorem data_packData (p : Packer) (s : List UInt8) :
    (p.packData s).data = p.data ++ s := rfl

theorem data_packBytes (p : Packer) (s : List UInt8) :
    (p.packBytes s).data =
      p.data ++ (UInt8.ofNat (s.length + 1) :: (s ++ [0])) := by
  rw [packBytes, data_packU8, data_packData, data_packU8, List.append_assoc,
    List.append_assoc]
  rfl

theorem data_packStr (p : Packer) (s : String) :
    (p.packStr s).data = p.data ++
      (UInt8.ofNat (Unpacker.cStr s).length :: Unpacker.cStr s) := by
  rw [packStr, data_packBytes, Unpacker.length_cStr, Unpacker.cStr]
  rfl

theorem data_packStrArg (p : Packer) (s : StrArg) :
    (p.packStrArg s).data = p.data ++
      (UInt8.ofNat (s.toBytes.length + 1) :: (s.toBytes ++ [0])) := by
  cases s with
  | str s => exact p.data_packBytes s.toUTF8.data.toList
  | bytes s => exact p.data_packBytes s

end Packer

end DuinoBus.Py
