import DuinoBus.Cpp.BusLog

/-!
# Writing a packet while the logger uses the same bus

`writes_last_iff`: `writePacket` returns after writing the frame of its packet
if and only if the debug flag is off, or there is no log packet.  Otherwise
`encodeStart` dumps the packet, the logger calls `writePacket` for the log
packet, and that dumps the log packet: every call makes another one before it
writes a byte, so there is no end to them (`endless`).
-/

namespace DuinoBus.LoggedWrite

open DuinoBus.Wire
open DuinoBus.Verified
open DuinoBus.Cpp
open DuinoBus.Cpp.LogBus

/-- `writePacket` returns `NONE`, and what it wrote is some frames of log
messages and then the frame of a command with its data. -/
def WritesLast (crc8 : UInt8 → UInt8 → UInt8) (lib : DuinoLog) (byte : UInt8)
    (bus : LogBus) (ptr : PacketPtr) (cmd : UInt8) (data : List UInt8) :
    Prop :=
  Returns (writePacket crc8 lib · byte) (bus, ptr) fun r =>
    r.1 = .none ∧ ∃ messages : List (List UInt8),
      r.2.1 = messages.flatMap (frame crc8 LOG) ++ frame crc8 cmd data

variable (crc8 : UInt8 → UInt8 → UInt8) (lib : DuinoLog) (byte : UInt8)

/-- **No end.**  With the debug flag on and a log packet that has room for a
message, the calls of `writePacket` nest deeper than any bound. -/
theorem endless {bus : LogBus} {ptr : PacketPtr} (h : Ready (bus, ptr))
    (depth : Nat) :
    nested (writePacket crc8 lib · byte) depth (bus, ptr) = .error .deep :=
  nested_rule (S := Ready) (Q := fun r => r = .error .deep) rfl
    (fun _ hcall _ ha => writePacket_deep crc8 lib hcall ha) depth h

/-- With the debug flag on and a log packet, `writePacket` does not return. -/
theorem not_returns_of_loud {bus : LogBus} {ptr log : PacketPtr}
    (h : bus.Loud log) (P : ErrorCode × List UInt8 × LogBus → Prop) :
    ¬ Returns (writePacket crc8 lib · byte) (bus, ptr) P := by
  rintro ⟨r, _, enough, hreturns⟩
  exact writePacket_ne_ok crc8 lib h enough r
    (hreturns enough (Nat.le_refl _))

/-- **When writing ends.**  For every state of the bus and its encoder,
`writePacket` returns after the frame of its packet, with complete frames of
log messages before it, if and only if the debug flag is off or there is no
log packet. -/
theorem writes_last_iff (bus : LogBus) (ptr : PacketPtr) {capacity : Nat}
    {cmd : UInt8} {data : List UInt8}
    (hp : (bus.store ptr).Holds capacity cmd data) :
    WritesLast crc8 lib byte bus ptr cmd data ↔
      bus.encoder.debug = false ∨ bus.logPacket = none := by
  constructor
  · intro hreturns
    by_contra hloud
    rw [not_or, Bool.not_eq_false] at hloud
    obtain ⟨hdebug, hlog⟩ := hloud
    obtain ⟨log, hlog⟩ := Option.ne_none_iff_exists'.mp hlog
    exact not_returns_of_loud crc8 lib byte ⟨hdebug, hlog⟩ _ hreturns
  · intro hquiet
    obtain ⟨bus', hwrite⟩ := writePacket_quiet crc8 lib hp hquiet byte
    exact returns_of_leaf hwrite ⟨rfl, [], rfl⟩

/-! ## A bus in debug mode -/

/-- Two hexadecimal digits. -/
def hex (value : UInt8) : List Char :=
  [Nat.digitChar (value.toNat / 16), Nat.digitChar (value.toNat % 16)]

/-- The conversions that the formats of the bus use. -/
def format : List Char → List FormatArg → List Char
  | '%' :: 's' :: fmt, .str s :: args => s.toList ++ format fmt args
  | '%' :: '0' :: '2' :: 'x' :: fmt, .hex8 value :: args =>
      hex value ++ format fmt args
  | '%' :: 'z' :: 'u' :: fmt, .size value :: args =>
      Nat.toDigits 10 value ++ format fmt args
  | c :: fmt, args => c :: format fmt args
  | [], _ => []

/-- A logging library that dumps no memory. -/
def duinoLog : DuinoLog :=
  ⟨4, fun fmt args => (format fmt.toList args).map fun c =>
    UInt8.ofNat c.toNat, fun _ _ _ => []⟩

/-- A `PING` command at 0 and a log packet with room for 253 characters at 1,
on a bus whose debug flag is given. -/
def pingBus (debug : Bool) : LogBus where
  store ptr := if ptr = 0 then (Packet.new [] 0).setCommand 0x01
    else Packet.new (List.replicate 256 0) 0
  packet := none
  encoder := (PacketEncoder.new 0).setDebug debug
  logPacket := some 1
  handlers := [fun _ => some "PING"]

example : format DUMP_FORMAT.toList [.str "Sent", .hex8 0x01, .str "PING",
    .size 0, .hex8 0x07] =
    "Sent: Command: 0x01 (PING) Len: 0 CRC: 0x07".toList := by decide

theorem writes_last_iff_ping :
    WritesLast crc8Poly07 duinoLog 0 (pingBus false) 0 0x01 [] ↔
      (pingBus false).encoder.debug = false ∨
        (pingBus false).logPacket = none :=
  writes_last_iff crc8Poly07 duinoLog 0 (pingBus false) 0
    (Packet.holds_self (Nat.le_refl 0))

/-- In debug mode, no `PING` is written. -/
theorem writes_last_fails :
    ¬ WritesLast crc8Poly07 duinoLog 0 (pingBus true) 0 0x01 [] :=
  not_returns_of_loud crc8Poly07 duinoLog 0 ⟨rfl, rfl⟩ _

end DuinoBus.LoggedWrite
