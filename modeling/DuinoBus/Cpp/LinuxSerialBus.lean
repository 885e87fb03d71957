import DuinoBus.Verified.Sockets
import DuinoBus.Wire

/-!
# Opening a serial port on Linux

`LinuxSerialBus` keeps the descriptor of its port.  As with the sockets, the
answers of the system are data here.  The attributes of the terminal and the
log messages are left out.
-/

namespace DuinoBus.Cpp

open DuinoBus.Wire
open DuinoBus.Verified

universe u

/-- What the system answers to `open`: which number `::open` picks, and
whether the other calls succeed. -/
structure SerialCalls where
  port : Option Nat
  tcgetattr : Bool
  tcsetattr : Bool
  deriving DecidableEq, Repr

/-- The bus, with the descriptor of its port. -/
structure LinuxSerialBus where
  serial : Int := -1
  deriving DecidableEq, Repr

namespace LinuxSerialBus

variable {α : Type u}

/-- `LinuxSerialBus::open`. -/
def openPort (calls : SerialCalls) (t : SocketTable α) :
    ErrorCode × LinuxSerialBus × SocketTable α :=
  match t.socket calls.port with
  | (serial, t) =>
      if serial < 0 then (.os, ⟨serial⟩, t)
      else if !calls.tcgetattr then (.os, ⟨serial⟩, t)
      else if !calls.tcsetattr then (.os, ⟨serial⟩, t)
      else (.none, ⟨serial⟩, t)

/-- `LinuxSerialBus::~LinuxSerialBus`. -/
def destroy (bus : LinuxSerialBus) (t : SocketTable α) : SocketTable α :=
  if 0 ≤ bus.serial then t.close (some bus.serial) else t

theorem openPort_none {calls : SerialCalls} (h : calls.port = none)
    (t : SocketTable α) : openPort calls t = (.os, ⟨-1⟩, t) := by
  rw [openPort, h]
  rfl

/-- The port is open and its number kept also where an error is returned. -/
theorem openPort_some {calls : SerialCalls} {pick : Nat}
    (h : calls.port = some pick) (t : SocketTable α) :
    (openPort calls t).2 = (⟨t.fresh pick⟩, t.add pick none) := by
  have hpos : ¬ (t.fresh pick : Int) < 0 := by omega
  rw [openPort, h, SocketTable.socket_some]
  simp only [if_neg hpos]
  split
  · rfl
  · split <;> rfl

end LinuxSerialBus

end DuinoBus.Cpp
