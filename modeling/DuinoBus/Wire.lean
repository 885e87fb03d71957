import DuinoBus.Verified.Grammar
import DuinoBus.Verified.ReceiverSound

/-!
# The wire format of the bus

Both implementations put the same frames on the line: SLIP byte stuffing, a
command byte first and an 8-bit CRC last.  This file fixes what they share,
the constants, the result codes and the checksum, and instantiates the
receiver of `DuinoBus.Verified.Receiver` for each of them.

The byte update of the checksum, `Crc8` of duino_util on the device and the
`crc-8` function of crcmod on the host, is code of other packages.  It is a
parameter `crc8 : UInt8 → UInt8 → UInt8` throughout, taking the running value
and the next byte.
-/

namespace DuinoBus.Wire

open DuinoBus.Verified

/-! ## Constants and result codes -/

/-- Start/End of Frame. -/
def END : UInt8 := 0xC0

/-- Next char is escaped. -/
def ESC : UInt8 := 0xDB

/-- Escape an END character. -/
def ESC_END : UInt8 := 0xDC

/-- Escape an ESC character. -/
def ESC_ESC : UInt8 := 0xDD

/-- The result codes.  The first eight are the device's `Packet::Error`, with
the same numbers; the host's `ErrorCode` has two more. -/
inductive ErrorCode where
  | none
  | notDone
  | crc
  | timeout
  | tooMuchData
  | tooSmall
  | badState
  | os
  | noDevice
  | notOpen
  deriving DecidableEq, Repr

/-- The ways in which the code stops without a result: a failed `assert`, an
access outside the packet storage or through a null pointer on the device, an
exception on the host. -/
inductive Fault where
  | assertFailed
  | outOfBounds
  | nullPointer
  | indexError
  | unicodeDecodeError
  deriving DecidableEq, Repr

/-- What a decoder shows after one byte: the result code, or at `NONE` the
packet it holds. -/
inductive Report where
  | code (err : ErrorCode)
  | packet (command : UInt8) (data : List UInt8) (crc : UInt8)
  deriving DecidableEq, Repr

/-- The report of a result code and the packet held with it. -/
def observe (err : ErrorCode) (command : UInt8) (data : List UInt8)
    (crc : UInt8) : Report :=
  if err = .none then .packet command data crc else .code err

/-- A report that asks for more bytes. -/
def Report.waiting : Report → Bool
  | .code .notDone => true
  | _ => false

/-! ## The frames -/

/-- SLIP. -/
def slip : Stuffing UInt8 where
  fin := END
  esc := ESC
  escFin := ESC_END
  escEsc := ESC_ESC
  esc_ne_fin := by decide
  escFin_ne_fin := by decide
  escEsc_ne_fin := by decide
  escEsc_ne_escFin := by decide

/-- The checksum of a command and its data, from initial value 0. -/
def checksum (crc8 : UInt8 → UInt8 → UInt8) (command : UInt8)
    (data : List UInt8) : UInt8 :=
  data.foldl crc8 (crc8 0 command)

/-- The framing of both implementations. -/
def framing (crc8 : UInt8 → UInt8 → UInt8) : Framing UInt8 :=
  { slip with check := checksum crc8 }

/-- The one frame a writer produces for a command and its data. -/
def frame (crc8 : UInt8 → UInt8 → UInt8) (command : UInt8)
    (data : List UInt8) : List UInt8 :=
  (framing crc8).frame command data

/-- What is left of a frame after its command and the first `idx` of the
bytes behind it. -/
def frameFrom (crc8 : UInt8 → UInt8 → UInt8) (command : UInt8)
    (data : List UInt8) (idx : Nat) : List UInt8 :=
  slip.stuffAll ((data ++ [checksum crc8 command data]).drop idx) ++ [END]

section FrameFrom

variable (crc8 : UInt8 → UInt8 → UInt8) (command : UInt8) (data : List UInt8)

theorem frame_eq : frame crc8 command data =
    END :: (slip.stuff command ++ frameFrom crc8 command data 0) := by
  simp only [frameFrom, List.drop_zero, ← List.append_assoc,
    ← slip.stuffAll_cons]
  rfl

theorem frameFrom_data {idx : Nat} (h : idx < data.length) :
    frameFrom crc8 command data idx =
      slip.stuff data[idx] ++ frameFrom crc8 command data (idx + 1) := by
  have hlt : idx < (data ++ [checksum crc8 command data]).length := by
    rw [List.length_append]
    omega
  rw [frameFrom, List.drop_eq_getElem_cons hlt, slip.stuffAll_cons,
    List.getElem_append_left h, List.append_assoc, frameFrom]

theorem frameFrom_crc :
    frameFrom crc8 command data data.length =
      slip.stuff (checksum crc8 command data) ++
        frameFrom crc8 command data (data.length + 1) := by
  have hend : (data ++ [checksum crc8 command data]).drop (data.length + 1) =
      [] := List.drop_of_length_le (by simp)
  simp only [frameFrom, List.drop_left, hend, slip.stuffAll_cons,
    slip.stuffAll_nil, List.append_nil, List.nil_append]

theorem frameFrom_end {idx : Nat} (h : data.length < idx) :
    frameFrom crc8 command data idx = [END] := by
  have hend : (data ++ [checksum crc8 command data]).drop idx = [] :=
    List.drop_of_length_le (by rw [List.length_append]; exact h)
  rw [frameFrom, hend]
  rfl

end FrameFrom

/-- The device's receiver: a refused frame leaves it inside the body, with
what the buffer still holds. -/
def deviceReceiver (crc8 : UInt8 → UInt8 → UInt8) (capacity : Nat) :
    Receiver UInt8 :=
  { framing crc8 with
    capacity := capacity
    afterShort := fun cmd => .body false cmd []
    afterMismatch := fun cmd body => .body false cmd body }

/-- The host's receiver: a refused frame leaves it ready for the next. -/
def hostReceiver (crc8 : UInt8 → UInt8 → UInt8) (capacity : Nat) :
    Receiver UInt8 :=
  { framing crc8 with
    capacity := capacity
    afterShort := fun _ => .command false
    afterMismatch := fun _ _ => .idle }

@[simp] theorem deviceReceiver_check (crc8 : UInt8 → UInt8 → UInt8)
    (capacity : Nat) :
    (deviceReceiver crc8 capacity).check = checksum crc8 := rfl

@[simp] theorem hostReceiver_check (crc8 : UInt8 → UInt8 → UInt8)
    (capacity : Nat) :
    (hostReceiver crc8 capacity).check = checksum crc8 := rfl

/-- The report of a verdict. -/
def report : Verdict UInt8 → Report
  | .pending => .code .notDone
  | .accepted cmd body sum => .packet cmd body sum
  | .mismatch => .code .crc
  | .short => .code .tooSmall
  | .overflow => .code .tooMuchData

/-- Different verdicts are reported differently. -/
theorem report_injective {v w : Verdict UInt8} (h : report v = report w) :
    v = w := by
  cases v <;> cases w <;> simp_all [report]

/-- The result code of a verdict. -/
def errorCode : Verdict UInt8 → ErrorCode
  | .pending => .notDone
  | .accepted _ _ _ => .none
  | .mismatch => .crc
  | .short => .tooSmall
  | .overflow => .tooMuchData

/-- A report tells the code. -/
theorem eq_errorCode {err : ErrorCode} {command crc : UInt8}
    {data : List UInt8} {v : Verdict UInt8}
    (h : observe err command data crc = report v) : err = errorCode v := by
  by_cases hnone : err = .none
  · rw [observe, if_pos hnone] at h
    cases v with
    | accepted cmd body sum => exact hnone
    | pending => cases h
    | mismatch => cases h
    | short => cases h
    | overflow => cases h
  · rw [observe, if_neg hnone] at h
    cases v with
    | accepted cmd body sum => cases h
    | pending => exact Report.code.inj h
    | mismatch => exact Report.code.inj h
    | short => exact Report.code.inj h
    | overflow => exact Report.code.inj h

theorem errorCode_eq_notDone {v : Verdict UInt8}
    (h : errorCode v = .notDone) : v = .pending := by
  cases v with
  | pending => rfl
  | accepted cmd body sum => cases h
  | mismatch => cases h
  | short => cases h
  | overflow => cases h

theorem errorCode_eq_none {v : Verdict UInt8} (h : errorCode v = .none) :
    ∃ cmd body sum, v = .accepted cmd body sum := by
  cases v with
  | accepted cmd body sum => exact ⟨cmd, body, sum, rfl⟩
  | pending => cases h
  | mismatch => cases h
  | short => cases h
  | overflow => cases h

theorem waiting_report (v : Verdict UInt8) :
    (report v).waiting = Verified.Grammar.quiet v := by
  cases v <;> rfl

/-- The reports of a decoder that reads a frame: `NOT_DONE` up to its last
byte, then the packet. -/
def readsFrame (crc8 : UInt8 → UInt8 → UInt8) (command : UInt8)
    (data : List UInt8) : List Report :=
  List.replicate ((frame crc8 command data).length - 1) (.code .notDone) ++
    [.packet command data (checksum crc8 command data)]

theorem map_report_reads (crc8 : UInt8 → UInt8 → UInt8) (command : UInt8)
    (data : List UInt8) :
    ((framing crc8).reads command data).map report =
      readsFrame crc8 command data := by
  simp [Framing.reads, readsFrame, frame, report, framing]

/-- The reports of frames that follow each other and are all read. -/
theorem map_report_readsAll (crc8 : UInt8 → UInt8 → UInt8)
    {R : Receiver UInt8} (hR : R.toFraming = framing crc8)
    (fs : List (UInt8 × List UInt8)) :
    (R.readsAll fs).map report = fs.flatMap fun f => readsFrame crc8 f.1 f.2 := by
  rw [Receiver.readsAll, List.map_flatMap, hR]
  simp only [map_report_reads]

/-- CRC-8 with polynomial x^8+x^2+x+1, most significant bit first: what the
two packages compute, for running the model on concrete input. -/
def crc8Poly07 (crc byte : UInt8) : UInt8 :=
  (List.range 8).foldl
    (fun c _ => if c &&& 0x80 = 0 then c <<< 1 else (c <<< 1) ^^^ 0x07)
    (crc ^^^ byte)

example : frame crc8Poly07 0x01 [0x02, 0x03] =
    [0xC0, 0x01, 0x02, 0x03, 0x48, 0xC0] := by decide +kernel

example : frame crc8Poly07 0xC0 [0x02, 0x03] =
    [0xC0, 0xDB, 0xDC, 0x02, 0x03, 0xAE, 0xC0] := by decide +kernel

end DuinoBus.Wire
