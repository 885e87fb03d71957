import DuinoBus.Wire

/-!
# The host's packet

`Packet` of the Python package.  Its data is a `bytearray` that no one else
refers to: the decoder fills one of its own, and `get_data` hands out a copy.
The dumps for debugging are in `DuinoBus.Py.Debugging`.
-/

namespace DuinoBus.Py

open DuinoBus.Wire

structure Packet where
  cmd : UInt8
  data : List UInt8
  crc : UInt8
  deriving DecidableEq, Repr

namespace Packet

def MAX_DATA_LEN : Nat := 256

/-- `Packet(cmd, data)`. -/
def new (cmd : UInt8) (data : List UInt8) : Packet := ⟨cmd, data, 0⟩

def setCommand (p : Packet) (cmd : UInt8) : Packet := { p with cmd := cmd }

def setData (p : Packet) (data : List UInt8) : Packet :=
  { p with data := data }

def appendByte (p : Packet) (byte : UInt8) : Packet :=
  { p with data := p.data ++ [byte] }

def getDataLen (p : Packet) : Nat := p.data.length

def getDataByte (p : Packet) (idx : Nat) : Except Fault UInt8 :=
  match p.data[idx]? with
  | some byte => .ok byte
  | none => .error .indexError

def calcCrc (crc8 : UInt8 → UInt8 → UInt8) (p : Packet) : UInt8 :=
  p.data.foldl crc8 (crc8 0 p.cmd)

def calcAndStoreCrc (crc8 : UInt8 → UInt8 → UInt8) (p : Packet) : Packet :=
  { p with crc := p.calcCrc crc8 }

/-- `self.data[-1]` raises when there is no data. -/
def extractCrc (p : Packet) : Except Fault (UInt8 × Packet) :=
  match p.data.getLast? with
  | some crc => .ok (crc, { p with crc := crc, data := p.data.dropLast })
  | none => .error .indexError

theorem calcCrc_eq (crc8 : UInt8 → UInt8 → UInt8) (p : Packet) :
    p.calcCrc crc8 = checksum crc8 p.cmd p.data := rfl

theorem extractCrc_concat {p : Packet} {data : List UInt8} {sum : UInt8}
    (h : p.data = data ++ [sum]) :
    p.extractCrc = .ok (sum, { p with crc := sum, data := data }) := by
  rw [extractCrc, h, List.getLast?_concat, List.dropLast_concat]

end Packet

end DuinoBus.Py
