import DuinoBus.Cpp.BusLog
import DuinoBus.Cpp.CorePacketHandler

/-!
# A device that logs over its own bus

`IBus` and its decoder log what goes wrong: a frame whose CRC is wrong, a
command that no handler accepts, a response with data but without a command.
With the debug flag set, they also dump what they receive and send.  Here the
installed logger is a `BusLog` on the same bus, so that every message is
written as a packet, in the middle of whatever logged it.

All packets are in the store of the bus, the decoder's packet too.  `call` is
`writePacket`, as in `LogBus`: the device loop runs it with calls nested no
deeper than a bound.
-/

namespace DuinoBus.Cpp

open DuinoBus.Wire
open DuinoBus.Verified

/-- The logging library with the level of `Log::error`. -/
structure DuinoErrorLog extends DuinoLog where
  errorLevel : UInt8

/-- `CorePacketHandler::as_str`. -/
def CorePacketHandler.asStr (cmd : UInt8) : Option String :=
  if cmd = PING then some "PING"
  else if cmd = DEBUG then some "DEBUG"
  else if cmd = LogBus.LOG then some "LOG"
  else if cmd = STACK_INFO then some "STACK_INFO"
  else if cmd = HEAP_INFO then some "HEAP_INFO"
  else some "???"

/-- An `IBus` with all that it points to. -/
structure LoggingBus (ρ : Type) where
  bus : LogBus
  decoder : PacketDecoder
  cmdPacket : PacketPtr
  rspPacket : PacketPtr
  handlers : List (Handler ρ)

namespace LoggingBus

/-- What the decoder says of a wrong CRC. -/
def CRC_FORMAT : String := "CRC Error: Received 0x%02x Expected 0x%02x"

/-- What the bus says of a command that no handler accepts. -/
def UNHANDLED_FORMAT : String := "Unhandled command: 0x%02x"

/-- What the bus says of a response without a command. -/
def NO_COMMAND_FORMAT : String := "Packet data set, but no command"

variable {ρ : Type}

/-- `IBus::IBus`, on a command, a response and a log packet. -/
def new (store : PacketPtr → Packet) (cmdPacket rspPacket : PacketPtr)
    (logPacket : Option PacketPtr) (escapeChar : UInt8) : LoggingBus ρ where
  bus := ⟨store, none, .new escapeChar, logPacket, []⟩
  decoder := .new (store cmdPacket)
  cmdPacket := cmdPacket
  rspPacket := rspPacket
  handlers := []

/-- A handler and the names that it gives to commands. -/
def add (d : LoggingBus ρ) (handler : Handler ρ)
    (asStr : UInt8 → Option String) : LoggingBus ρ :=
  { d with
    bus := { d.bus with handlers := d.bus.handlers ++ [asStr] }
    handlers := d.handlers ++ [handler] }

def setDebug (d : LoggingBus ρ) (debug : Bool) : LoggingBus ρ :=
  { d with
    bus := { d.bus with encoder := d.bus.encoder.setDebug debug }
    decoder := d.decoder.setDebug debug }

/-- The decoder with its packet at hand. -/
def openDecoder (d : LoggingBus ρ) : PacketDecoder :=
  { d.decoder with packet := d.bus.store d.cmdPacket }

/-- The bus after its decoder has run. -/
def closeDecoder (d : LoggingBus ρ) (decoder : PacketDecoder) :
    LoggingBus ρ :=
  { d with bus := d.bus.setPacket d.cmdPacket decoder.packet, decoder }

section Code

variable (crc8 : UInt8 → UInt8 → UInt8) (lib : DuinoErrorLog)
  (call : LogBus × PacketPtr →
    Except (Stop Fault) (ErrorCode × List UInt8 × LogBus))

/-- `Log::error`. -/
def logError (d : LoggingBus ρ) (fmt : String) (args : List FormatArg) :
    Except (Stop Fault) (List UInt8 × LoggingBus ρ) := do
  let (bytes, bus) ← LogBus.doLog call d.bus lib.errorLevel
    (lib.vStrXPrintf fmt args)
  return (bytes, { d with bus })

/-- The decoder dumps its packet when debugging. -/
def dumpCmd (d : LoggingBus ρ) (label : String) :
    Except (Stop Fault) (List UInt8 × LoggingBus ρ) :=
  if d.decoder.debug then do
    let (bytes, bus) ← LogBus.dump lib.toDuinoLog call d.bus label d.cmdPacket
    return (bytes, { d with bus })
  else .ok ([], d)

/-- What `decodeByte` logs.  It does so as the last thing before it returns,
and which code it returns says which of its branches it is in. -/
def logDecoded (d : LoggingBus ρ) :
    ErrorCode → Except (Stop Fault) (List UInt8 × LoggingBus ρ)
  | .none => d.dumpCmd lib call "Rcvd"
  | .crc => do
      let packet := d.bus.store d.cmdPacket
      let expectedCrc ← Stop.lift (packet.calcCrc crc8)
      let (bytes, d) ← d.logError lib call CRC_FORMAT
        [.hex8 packet.crc, .hex8 expectedCrc]
      let (rest, d) ← d.dumpCmd lib call "CRC "
      return (bytes ++ rest, d)
  | .tooMuchData => d.dumpCmd lib call "2Big"
  | _ => .ok ([], d)

def processByte (d : LoggingBus ρ) (input : Option UInt8) :
    Except (Stop Fault) (ErrorCode × List UInt8 × LoggingBus ρ) :=
  match input with
  | none => .ok (.notDone, [], d)
  | some byte => do
      let (err, decoder) ← Stop.lift (d.openDecoder.decodeByte crc8 byte)
      let (bytes, d) ← (d.closeDecoder decoder).logDecoded crc8 lib call err
      return (err, bytes, d)

/-- A handler has been called. -/
def called (d : LoggingBus ρ) (r : Handled) : LoggingBus ρ :=
  let d := { d with bus := d.bus.setPacket d.rspPacket r.rsp }
  match r.debug with
  | some debug => d.setDebug debug
  | none => d

/-- A handler has accepted: a response with a command is written. -/
def respond (d : LoggingBus ρ) :
    Except (Stop Fault) (List UInt8 × LoggingBus ρ) :=
  if (d.bus.store d.rspPacket).command ≠ 0 then do
    let (_, bytes, bus) ← call (d.bus, d.rspPacket)
    return (bytes, { d with bus })
  else if 0 < (d.bus.store d.rspPacket).dataLen then
    d.logError lib call NO_COMMAND_FORMAT []
  else .ok ([], d)

/-- The loop over the handlers. -/
def dispatch (env : ρ) : List (Handler ρ) → LoggingBus ρ →
    Except (Stop Fault) (Bool × List UInt8 × LoggingBus ρ)
  | [], d => do
      let (bytes, d) ← d.logError lib call UNHANDLED_FORMAT
        [.hex8 (d.bus.store d.cmdPacket).command]
      return (false, bytes, d)
  | handler :: handlers, d => do
      let r ← Stop.lift (handler env (d.bus.store d.cmdPacket)
        (d.bus.store d.rspPacket))
      if r.handled then
        let (bytes, d) ← (d.called r).respond lib call
        return (true, bytes, d)
      else dispatch env handlers (d.called r)

def handlePacket (d : LoggingBus ρ) (env : ρ) :
    Except (Stop Fault) (Bool × List UInt8 × LoggingBus ρ) := do
  let rsp ← Stop.lift
    (((d.bus.store d.rspPacket).setCommand 0).setData [])
  dispatch lib call env d.handlers
    { d with bus := d.bus.setPacket d.rspPacket rsp }

/-- One round of the device loop, with `writePacket` nested no deeper than a
bound.  `uninit` is what its local variable contains in every call. -/
def serve (depth : Nat) (d : LoggingBus ρ) (r : Bus.Round ρ) :
    Except (Stop Fault) (List UInt8 × LoggingBus ρ) := do
  let write := nested (LogBus.writePacket crc8 lib.toDuinoLog · r.uninit) depth
  let (err, logged, d) ← d.processByte crc8 lib write (some r.received)
  if err = .none then
    let (_, bytes, d) ← d.handlePacket lib write r.env
    return (logged ++ bytes, d)
  else return (logged, d)

/-- The bytes written in a whole run, round by round. -/
def serveAll (depth : Nat) (d : LoggingBus ρ) : List (Bus.Round ρ) →
    Except (Stop Fault) (List (List UInt8) × LoggingBus ρ) :=
  feed (serve crc8 lib depth) d

end Code

end LoggingBus

end DuinoBus.Cpp
