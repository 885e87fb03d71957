import DuinoBus.Py.Bus
import DuinoBus.Py.DumpMem

/-!
# What the host shows

`Packet.dump` prints a line about a packet, and its data in hex.  With the
debug flag set, an encoder dumps the packet that it is to encode, and a decoder
the packets that it accepts, those whose CRC is wrong, and its own packet at
every byte for which there is no room.  `send_command_get_response` dumps the
command that it could not write, or that was not answered, whatever the flag.

The functions are those of the decoder, the encoder and the bus, with the lines
that they print and the errors that they log.  A dump can raise, so it is not
evident that debugging changes nothing else.
-/

namespace DuinoBus.Py.Debugging

open DuinoBus.Wire
open DuinoBus.Verified
open DuinoBus.Py.DumpMem (formatHex dumpMem)

/-- A line on the standard output, or an error of the logger. -/
inductive Shown where
  | print (line : String)
  | error (msg : String)
  deriving DecidableEq, Repr

/-- An exception of the functions without their dumps, or of a dump. -/
inductive Raised where
  | fault (f : Fault)
  | dump (e : DumpMem.Raised)
  deriving DecidableEq, Repr

/-- What shows nothing. -/
def quiet {α : Type} (r : Except Fault α) : Traced Shown Raised α :=
  .lift (r.mapError .fault)

/-! ## The packet -/

/-- `f'0x{byte:02x}'`. -/
def hexByte (byte : UInt8) : String :=
  "0x" ++ String.ofList (formatHex 2 byte.toNat)

/-- The first line of a dump. -/
def header (label : String) (p : Packet) : String :=
  label ++ " Command: " ++ hexByte p.cmd ++ " (" ++ toString p.cmd.toNat ++
    ") Len: " ++ toString p.getDataLen ++ " CRC: " ++ hexByte p.crc

/-- `dump`, with the default arguments of `dump_mem`. -/
def dump (label : String) (p : Packet) : Traced Shown Raised Unit := do
  .emit (.print (header label p))
  if 0 < p.getDataLen then
    (dumpMem (some p.data) label 0 16 true true).translate .print .dump
  else return ()

/-- `if self.debug: self.packet.dump(label)`. -/
def dumpIf (debug : Bool) (label : String) (p : Packet) :
    Traced Shown Raised Unit :=
  if debug then dump label p else return ()

/-! ## The decoder -/

/-- `'CRC Error: Received 0x%02x Expected 0x%02x'`. -/
def crcError (rcvdCrc expectedCrc : UInt8) : String :=
  "CRC Error: Received " ++ hexByte rcvdCrc ++ " Expected " ++
    hexByte expectedCrc

/-- What is printed when there is no room for a byte. -/
def noRoom : Shown := .print "Returning TOO_MUCH_DATA"

/-- A decoder with its debug flag. -/
structure Decoder where
  decoder : PacketDecoder Packet
  debug : Bool
  deriving DecidableEq, Repr

def Decoder.setDebug (d : Decoder) (debug : Bool) : Decoder :=
  { d with debug }

section Code

variable (crc8 : UInt8 → UInt8 → UInt8)

def decodeByteData (debug : Bool) (d : PacketDecoder Packet) (byte : UInt8) :
    Traced Shown Raised (ErrorCode × PacketDecoder Packet) :=
  if byte = END ∧ d.escape = false then
    if d.packet.getDataLen = 0 then
      return (.tooSmall, { d with state := .command })
    else do
      let (rcvdCrc, packet) ← quiet d.packet.extractCrc
      let d := { d with packet, state := .idle }
      if rcvdCrc = d.packet.calcCrc crc8 then do
        dumpIf debug "Rcvd" d.packet
        return (.none, d)
      else do
        .emit (.error (crcError rcvdCrc (d.packet.calcCrc crc8)))
        dumpIf debug "CRC " d.packet
        return (.crc, d)
  else if Packet.MAX_DATA_LEN ≤ d.packet.getDataLen then do
    dumpIf debug "2Big" d.packet
    .emit noRoom
    return (.tooMuchData, { d with escape := false })
  else
    return (.notDone, { d with
      escape := false
      packet := d.packet.appendByte byte })

/-- The handler of the state the decoder is in. -/
def decodeByteState (debug : Bool) (d : PacketDecoder Packet) (byte : UInt8) :
    Traced Shown Raised (ErrorCode × PacketDecoder Packet) :=
  match d.state with
  | .idle => return d.decodeByteIdle byte
  | .command => return d.decodeByteCommand byte
  | .data => decodeByteData crc8 debug d byte
  | .other => return (.badState, d)

/-- `decode_byte` of a decoder whose flag is `debug`. -/
def decodeByte (debug : Bool) (d : PacketDecoder Packet) (byte : UInt8) :
    Traced Shown Raised (ErrorCode × PacketDecoder Packet) :=
  if d.state = .idle then decodeByteState crc8 debug d byte
  else if d.escape then
    if byte = ESC_END then decodeByteState crc8 debug d END
    else if byte = ESC_ESC then decodeByteState crc8 debug d ESC
    else decodeByteState crc8 debug d byte
  else if byte = ESC then return (.notDone, { d with escape := true })
  else decodeByteState crc8 debug d byte

/-- A byte, before which the flag is set. -/
def Decoder.receive (d : Decoder) (input : Bool × UInt8) :
    Traced Shown Raised (ErrorCode × Decoder) := do
  let d := d.setDebug input.1
  let (err, decoder) ← decodeByte crc8 d.debug d.decoder input.2
  return (err, { d with decoder })

/-! ## The encoder and the bus -/

/-- `encode_start` of an encoder whose flag is `debug`. -/
def encodeStart (debug : Bool) (e : PacketEncoder) (pkt : Packet) :
    Traced Shown Raised PacketEncoder := do
  let packet := pkt.calcAndStoreCrc crc8
  dumpIf debug "Sent" packet
  return { e with packet, state := .idle }

/-- The result, and the bytes that were written. -/
def writePacket (debug : Bool) (bus : Bus) (pkt : Packet)
    (accepts : List Bool) :
    Traced Shown Raised (ErrorCode × List UInt8 × Bus) := do
  let encoder ← encodeStart crc8 debug bus.encoder pkt
  let (err, bytes, s) ← quiet ((Bus.writer crc8).drain (encoder, accepts))
  return (err, bytes.filterMap id, { bus with encoder := s.1 })

/-- The command that is dumped is the one whose CRC the encoder stored.
`arrived` is what the receive thread queues while the call waits. -/
def sendCommandGetResponse (isOpen debug : Bool) (bus : Bus) (cmdPkt : Packet)
    (accepts : List Bool) (arrived : List Ref) :
    Traced Shown Raised ((ErrorCode × Option Ref) × List UInt8 × Bus) :=
  if isOpen then do
    let (err, bytes, bus) ← writePacket crc8 debug bus cmdPkt accepts
    if err ≠ .none then do
      .emit (.error "Error writing command")
      dump "Error" (cmdPkt.calcAndStoreCrc crc8)
      return ((err, none), bytes, bus)
    else
      match bus.recvQueue ++ arrived with
      | [] => do
          .emit (.error "Timeout waiting for response")
          dump "Timeout" (cmdPkt.calcAndStoreCrc crc8)
          return ((.timeout, none), bytes, bus)
      | rspPkt :: rest =>
          return ((.none, some rspPkt), bytes, { bus with recvQueue := rest })
  else return ((.notOpen, none), [], bus)

end Code

end DuinoBus.Py.Debugging
