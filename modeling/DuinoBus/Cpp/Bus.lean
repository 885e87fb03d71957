import DuinoBus.Cpp.PacketDecoder
import DuinoBus.Cpp.PacketEncoder

/-!
# The device's bus

`IBus` joins a decoder, an encoder, the response packet and the registered
handlers.  The command packet is the decoder's packet.  What a bus writes is
a list of bytes here; reading is an argument, `none` when no byte is there.

A handler sees the command packet and the response packet and returns
whether it accepted the command, the response packet, and the debug setting
if it changed it.  It may also read its surroundings, a parameter `ρ`.

Handlers are arbitrary in this file.  Log output is left out, so the bus is
one that no logger writes to.
-/

namespace DuinoBus.Cpp

open DuinoBus.Wire
open DuinoBus.Verified

/-- What `handlePacket` of a handler did. -/
structure Handled where
  handled : Bool
  rsp : Packet
  debug : Option Bool

/-- `IPacketHandler::handlePacket`. -/
abbrev Handler (ρ : Type) := ρ → Packet → Packet → Except Fault Handled

structure Bus (ρ : Type) where
  decoder : PacketDecoder
  encoder : PacketEncoder
  rspPacket : Packet
  handlers : List (Handler ρ)

namespace Bus

variable {ρ : Type} (crc8 : UInt8 → UInt8 → UInt8)

/-- `IBus::IBus`, on a command and a response packet. -/
def new (cmdPacket rspPacket : Packet) (escapeChar : UInt8) : Bus ρ :=
  ⟨.new cmdPacket, .new escapeChar, rspPacket, []⟩

def cmdPacket (bus : Bus ρ) : Packet := bus.decoder.packet

def setDebug (bus : Bus ρ) (debug : Bool) : Bus ρ :=
  { bus with
    decoder := bus.decoder.setDebug debug
    encoder := bus.encoder.setDebug debug }

def add (bus : Bus ρ) (handler : Handler ρ) : Bus ρ :=
  { bus with handlers := bus.handlers ++ [handler] }

def processByte (bus : Bus ρ) (input : Option UInt8) :
    Except Fault (ErrorCode × Bus ρ) :=
  match input with
  | none => .ok (.notDone, bus)
  | some byte => do
      let (err, decoder) ← bus.decoder.decodeByte crc8 byte
      return (err, { bus with decoder })

/-- The result, the bytes written, and the packet with its CRC.  `byte` is
what the local variable contained before the first call of `encodeByte`. -/
def writePacket (bus : Bus ρ) (packet : Packet) (byte : UInt8) :
    Except Fault (ErrorCode × List UInt8 × Packet × Bus ρ) := do
  let (err, bytes, packet, encoder) ← bus.encoder.encode crc8 packet byte
  return (err, bytes, packet, { bus with encoder })

/-- A handler has been called: the response packet is what it made of it, and
it may have switched debugging. -/
def called (bus : Bus ρ) (r : Handled) : Bus ρ :=
  match r.debug with
  | some debug => { bus.setDebug debug with rspPacket := r.rsp }
  | none => { bus with rspPacket := r.rsp }

/-- A handler has accepted: a response with a command is written. -/
def respond (bus : Bus ρ) (byte : UInt8) :
    Except Fault (List UInt8 × Bus ρ) :=
  if bus.rspPacket.command ≠ 0 then do
    let (_, bytes, rspPacket, bus) ← bus.writePacket crc8 bus.rspPacket byte
    return (bytes, { bus with rspPacket })
  else .ok ([], bus)

/-- The loop over the handlers. -/
def dispatch (env : ρ) (byte : UInt8) :
    List (Handler ρ) → Bus ρ → Except Fault (Bool × List UInt8 × Bus ρ)
  | [], bus => .ok (false, [], bus)
  | handler :: handlers, bus => do
      let r ← handler env bus.cmdPacket bus.rspPacket
      if r.handled then
        let (bytes, bus) ← (bus.called r).respond crc8 byte
        return (true, bytes, bus)
      else dispatch env byte handlers (bus.called r)

def handlePacket (bus : Bus ρ) (env : ρ) (byte : UInt8) :
    Except Fault (Bool × List UInt8 × Bus ρ) := do
  let rspPacket ← (bus.rspPacket.setCommand 0).setData []
  dispatch crc8 env byte bus.handlers { bus with rspPacket }

/-! ## The device loop -/

/-- What one round of the device loop meets: a received byte, the
surroundings of the handlers, and the contents of an uninitialised local. -/
structure Round (ρ : Type) where
  received : UInt8
  env : ρ
  uninit : UInt8

/-- Process a byte, and handle the packet if that completed one.  The answer
is what was written. -/
def serve (bus : Bus ρ) (r : Round ρ) : Except Fault (List UInt8 × Bus ρ) := do
  let (err, bus) ← bus.processByte crc8 (some r.received)
  if err = .none then
    let (_, bytes, bus) ← bus.handlePacket crc8 r.env r.uninit
    return (bytes, bus)
  else return ([], bus)

/-- The bytes written in a whole run, round by round. -/
def serveAll (bus : Bus ρ) : List (Round ρ) →
    Except Fault (List (List UInt8) × Bus ρ) :=
  feed (serve crc8) bus

/-! ## What the operations do -/

/-- Processing a byte shows what the decoder shows. -/
theorem processByte_eq {bus : Bus ρ} {capacity : Nat} {ph : Phase UInt8}
    (h : bus.decoder.Tracks capacity ph) (byte : UInt8) :
    ∃ err decoder, bus.processByte crc8 (some byte) =
        .ok (err, { bus with decoder }) ∧
      decoder.report err =
        Wire.report ((deviceReceiver crc8 capacity).step ph byte).2 ∧
      decoder.Tracks capacity ((deviceReceiver crc8 capacity).step ph byte).1 ∧
      ∀ cmd data sum,
        ((deviceReceiver crc8 capacity).step ph byte).2 =
          .accepted cmd data sum →
        decoder.packet.Holds capacity cmd data := by
  obtain ⟨err, decoder, hok, hreport, htracks, hholds⟩ :=
    PacketDecoder.shows_decodeByte crc8 h byte
  refine ⟨err, decoder, ?_, hreport, htracks, hholds⟩
  rw [processByte, hok]
  rfl

/-- Writing a packet writes its frame. -/
theorem writePacket_eq (bus : Bus ρ) {packet : Packet} {capacity : Nat}
    {cmd : UInt8} {data : List UInt8} (h : packet.Holds capacity cmd data)
    (byte : UInt8) :
    ∃ q encoder, bus.writePacket crc8 packet byte =
        .ok (.none, frame crc8 cmd data, q, { bus with encoder }) ∧
      q.Holds capacity cmd data := by
  obtain ⟨q, encoder, henc, hq⟩ :=
    PacketEncoder.encode_eq crc8 bus.encoder h byte
  refine ⟨q, encoder, ?_, hq⟩
  rw [writePacket, henc]
  rfl

/-- A response with a command goes out as its frame. -/
theorem respond_eq {bus : Bus ρ} {capacity : Nat} {cmd : UInt8}
    {data : List UInt8} (h : bus.rspPacket.Holds capacity cmd data)
    (hcmd : cmd ≠ 0) (byte : UInt8) :
    ∃ q encoder, bus.respond crc8 byte =
        .ok (frame crc8 cmd data, { bus with encoder, rspPacket := q }) ∧
      q.Holds capacity cmd data := by
  obtain ⟨q, encoder, hwrite, hq⟩ := bus.writePacket_eq crc8 h byte
  refine ⟨q, encoder, ?_, hq⟩
  rw [respond, if_pos (by rw [h.command]; exact hcmd), hwrite]
  rfl

/-- Calling a handler leaves the decoder where it was, up to debugging. -/
theorem tracks_called {bus : Bus ρ} {capacity : Nat} {ph : Phase UInt8}
    (h : bus.decoder.Tracks capacity ph) (r : Handled) :
    (bus.called r).decoder.Tracks capacity ph := by
  unfold called
  split
  · cases ph <;> exact h
  · exact h

theorem rspPacket_called (bus : Bus ρ) (r : Handled) :
    (bus.called r).rspPacket = r.rsp := by
  unfold called
  split <;> rfl

theorem handlers_called (bus : Bus ρ) (r : Handled) :
    (bus.called r).handlers = bus.handlers := by
  unfold called
  split <;> rfl

end Bus

end DuinoBus.Cpp
