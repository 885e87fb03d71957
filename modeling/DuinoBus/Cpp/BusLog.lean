import DuinoBus.Cpp.PacketEncoder
import DuinoBus.Verified.Reentrant

/-!
# Logging over the bus

`BusLog` sends log messages over a bus.  With the debug flag set, the encoder
of a bus dumps every packet it starts to encode, and the dump is logged.  When
the messages go over the same bus, `writePacket` is called back from
`encodeStart`: dump, `do_log`, `writePacket` of the log packet, with the same
encoder.

All packets live in a store here, because the log packet is filled while the
encoder points to another packet, and the encoder is left pointing to it.
The functions between `encodeStart` and `writePacket` take the latter as an
argument, `call`, and `writePacket` is run by `nested`.

`encodeStart_quiet` and `writePacket_deep` say what `encodeStart` does: it
leaves the bus ready to write the packet, or calls `writePacket` for the log
packet before anything else.
-/

namespace DuinoBus.Cpp

open DuinoBus.Wire
open DuinoBus.Verified

/-- A pointer to a packet. -/
abbrev PacketPtr := Nat

/-- An argument of a format. -/
inductive FormatArg where
  | str (s : String)
  | hex8 (value : UInt8)
  | size (value : Nat)
  deriving DecidableEq, Repr

/-- The logging library: the level of `Log::info`, the characters that
`vStrXPrintf` makes of a format and its arguments, and the levels and texts of
the messages that `DumpMem` logs for a label, an address and some memory. -/
structure DuinoLog where
  infoLevel : UInt8
  vStrXPrintf : String → List FormatArg → List UInt8
  dumpMem : String → Nat → List UInt8 → List (UInt8 × List UInt8)

/-- A bus with a log packet, `none` for the null pointer, which the installed
logger sends its messages over.  `packet` is where the encoder points, and
the handlers are there for the names they give to commands. -/
structure LogBus where
  store : PacketPtr → Packet
  packet : Option PacketPtr
  encoder : PacketEncoder
  logPacket : Option PacketPtr
  handlers : List (UInt8 → Option String)

namespace LogBus

/-- Log message (to host). -/
def LOG : UInt8 := 0x03

/-- The format of the first line of a dump. -/
def DUMP_FORMAT : String := "%s: Command: 0x%02x (%s) Len: %zu CRC: 0x%02x"

/-- The encoder with its packet at hand. -/
def openEncoder (bus : LogBus) : PacketEncoder :=
  { bus.encoder with packet := bus.packet.map bus.store }

def setPacket (bus : LogBus) (ptr : PacketPtr) (packet : Packet) : LogBus :=
  { bus with store := fun p => if p = ptr then packet else bus.store p }

/-- The first handler with a name for the command names it. -/
def asStr (cmd : UInt8) : List (UInt8 → Option String) → String
  | [] => "???"
  | handler :: handlers =>
      match handler cmd with
      | none => asStr cmd handlers
      | some str =>
          if str.toList.head? = some '?' then asStr cmd handlers else str

/-! ## The log packet -/

/-- `log_char_to_packet`, on the packet and `bytes_written`.  The last byte of
the packet is kept for the null. -/
def logCharToPacket (param : Packet × Nat) (ch : UInt8) :
    Except Fault (Packet × Nat) :=
  if 1 < param.1.getSpaceRemaining then do
    let pkt ← param.1.appendByte ch
    return (pkt, param.2 + 1)
  else .ok param

/-- What `do_log` makes of the log packet: the level, the length of the text,
and the text with a null at its end. -/
def fillLog (log : Packet) (level : UInt8) (text : List UInt8) :
    Except Fault Packet := do
  let log ← (log.setCommand LOG).setData []
  let log ← log.appendByte level
  let (strLen, log) := log.getWriteData 1
  let (log, bytesWritten) ← text.foldlM logCharToPacket (log, 0)
  let log ← log.appendByte 0
  return log.write strLen (UInt8.ofNat (bytesWritten + 1))

/-! ## The code that calls back -/

section Code

variable (crc8 : UInt8 → UInt8 → UInt8) (lib : DuinoLog)
  (call : LogBus × PacketPtr →
    Except (Stop Fault) (ErrorCode × List UInt8 × LogBus))

/-- `BusLog::do_log`.  A bus without a log packet logs nothing. -/
def doLog (bus : LogBus) (level : UInt8) (text : List UInt8) :
    Except (Stop Fault) (List UInt8 × LogBus) :=
  match bus.logPacket with
  | none => .ok ([], bus)
  | some log => do
      let packet ← Stop.lift (fillLog (bus.store log) level text)
      let (_, bytes, bus) ← call (bus.setPacket log packet, log)
      return (bytes, bus)

/-- Messages one after the other, as `DumpMem` logs them. -/
def doLogs (bus : LogBus) :
    List (UInt8 × List UInt8) → Except (Stop Fault) (List UInt8 × LogBus)
  | [] => .ok ([], bus)
  | (level, text) :: messages => do
      let (bytes, bus) ← doLog call bus level text
      let (rest, bus) ← doLogs bus messages
      return (bytes ++ rest, bus)

/-- `Packet::dump`. -/
def dump (bus : LogBus) (label : String) (ptr : PacketPtr) :
    Except (Stop Fault) (List UInt8 × LogBus) := do
  let packet := bus.store ptr
  let text := lib.vStrXPrintf DUMP_FORMAT [.str label, .hex8 packet.command,
    .str (asStr packet.command bus.handlers), .size packet.dataLen,
    .hex8 packet.crc]
  let (bytes, bus) ← doLog call bus lib.infoLevel text
  let data ← Stop.lift (bus.store ptr).readData
  let (rest, bus) ← doLogs call bus (lib.dumpMem label 0 data)
  return (bytes ++ rest, bus)

/-- What was written while the packet was dumped, and the bus. -/
def encodeStart (bus : LogBus) (ptr : PacketPtr) :
    Except (Stop Fault) (List UInt8 × LogBus) := do
  let packet ← Stop.lift ((bus.store ptr).calcAndStoreCrc crc8)
  let bus := { bus.setPacket ptr packet with packet := some ptr }
  let (bytes, bus) ←
    if bus.encoder.debug then dump lib call bus "Sent" ptr else .ok ([], bus)
  return (bytes, { bus with encoder := { bus.encoder with state := .idle } })

/-- `IBus::writePacket`: the result, all bytes written until it returns, and
the bus.  `byte` is what its local variable contained. -/
def writePacket (byte : UInt8) (arg : LogBus × PacketPtr) :
    Except (Stop Fault) (ErrorCode × List UInt8 × LogBus) := do
  let (logged, bus) ← encodeStart crc8 lib call arg.1 arg.2
  let (err, bytes, s) ← Stop.lift
    ((PacketEncoder.generator crc8).drain (bus.openEncoder, byte))
  return (err, logged ++ bytes, { bus with encoder := s.1 })

end Code

@[simp] theorem store_setPacket_self (bus : LogBus) (ptr : PacketPtr)
    (packet : Packet) : (bus.setPacket ptr packet).store ptr = packet :=
  if_pos rfl

/-- The part of a text that a log packet has room for, besides the level, the
length and the null. -/
def logged (capacity : Nat) (text : List UInt8) : List UInt8 :=
  text.take (capacity - 3)

section Filling

variable {log : Packet} {capacity : Nat} {cmd : UInt8} {bs : List UInt8}

/-- Characters are stored while they leave room for the null. -/
private theorem foldlM_logCharToPacket (h : log.Holds capacity cmd bs)
    (written : Nat) (text : List UInt8) :
    ∃ q, text.foldlM logCharToPacket (log, written) =
        .ok (q, written + (text.take (capacity - 1 - bs.length)).length) ∧
      q.Holds capacity cmd (bs ++ text.take (capacity - 1 - bs.length)) := by
  induction text generalizing log bs written with
  | nil =>
      rw [List.take_nil, List.append_nil]
      exact ⟨log, rfl, h⟩
  | cons ch text ih =>
      rw [List.foldlM_cons, logCharToPacket, h.getSpaceRemaining]
      by_cases hroom : 1 < capacity - bs.length
      · obtain ⟨q, happend, hq⟩ := h.appendByte ch (by omega)
        obtain ⟨r, hrest, hr⟩ := ih hq (written + 1)
        have hsub : capacity - 1 - bs.length =
            capacity - 1 - (bs ++ [ch]).length + 1 := by
          rw [List.length_append, List.length_singleton]
          omega
        rw [List.append_assoc] at hr
        rw [hsub, List.take_succ_cons, List.length_cons]
        refine ⟨r, ?_, hr⟩
        simp only [if_pos hroom, happend, bind, Except.bind, pure, Except.pure]
        rw [hrest, Nat.add_assoc, Nat.add_comm 1]
      · obtain ⟨q, hrest, hq⟩ := ih h written
        have hsub : capacity - 1 - bs.length = 0 := by omega
        rw [hsub, List.take_zero] at hrest hq ⊢
        refine ⟨q, ?_, hq⟩
        simp only [if_neg hroom, bind, Except.bind]
        exact hrest

/-- **A log message** holds its level, the length of the text with the null,
and the text as far as there is room for it. -/
theorem fillLog_eq (log : Packet) (level : UInt8) (text : List UInt8)
    (hroom : 3 ≤ log.maxDataLen) :
    ∃ q, fillLog log level text = .ok q ∧ q.Holds log.maxDataLen LOG
      (level :: UInt8.ofNat ((logged log.maxDataLen text).length + 1) ::
        (logged log.maxDataLen text ++ [0])) := by
  obtain ⟨p₀, hset, h₀⟩ := (log.setCommand LOG).setData_holds []
    (Nat.zero_le _)
  change p₀.Holds log.maxDataLen LOG [] at h₀
  obtain ⟨p₁, hlevel, h₁⟩ := h₀.appendByte level
    (by rw [List.length_nil]; omega)
  obtain ⟨p₂, byte, hclaim, h₂⟩ := h₁.getWriteData_one
    (by rw [List.nil_append, List.length_singleton]; omega)
  obtain ⟨p₃, htext, h₃⟩ := foldlM_logCharToPacket h₂ 0 text
  have hlen : ([] ++ [level] ++ [byte] : List UInt8).length = 2 := rfl
  have hlogged : text.take (log.maxDataLen - 1 -
      ([] ++ [level] ++ [byte] : List UInt8).length) =
      logged log.maxDataLen text := by
    rw [hlen, logged]
    congr 1
  rw [hlogged] at htext h₃
  have hfits : (logged log.maxDataLen text).length ≤ log.maxDataLen - 3 := by
    rw [logged, List.length_take]
    exact Nat.min_le_left _ _
  obtain ⟨p₄, hnull, h₄⟩ := h₃.appendByte 0
    (by rw [List.length_append, hlen]; omega)
  refine ⟨p₄.write 1 (UInt8.ofNat ((logged log.maxDataLen text).length + 1)),
    ?_, ?_⟩
  · simp only [fillLog, hset, hlevel, hclaim, htext, hnull, bind, Except.bind,
      pure, Except.pure]
    rw [Nat.zero_add]
    rfl
  · exact h₄.write 1 _

end Filling

/-! ## Without a message -/

section Quiet

variable (crc8 : UInt8 → UInt8 → UInt8) (lib : DuinoLog) {bus : LogBus}
  {ptr : PacketPtr} {capacity : Nat} {cmd : UInt8} {data : List UInt8}

private theorem doLogs_of_none (call : LogBus × PacketPtr →
      Except (Stop Fault) (ErrorCode × List UInt8 × LogBus))
    (hnone : bus.logPacket = none) (messages : List (UInt8 × List UInt8)) :
    doLogs call bus messages = .ok ([], bus) := by
  induction messages with
  | nil => rfl
  | cons message messages ih =>
      have hlog : doLog call bus message.1 message.2 = .ok ([], bus) := by
        rw [doLog, hnone]
      simp only [doLogs, hlog, ih, bind, Except.bind, pure, Except.pure]
      rfl

/-- A dump that is not logged changes nothing. -/
private theorem dump_of_none (call : LogBus × PacketPtr →
      Except (Stop Fault) (ErrorCode × List UInt8 × LogBus))
    (hnone : bus.logPacket = none)
    (hp : (bus.store ptr).Holds capacity cmd data) (label : String) :
    dump lib call bus label ptr = .ok ([], bus) := by
  have hlog : ∀ text, doLog call bus lib.infoLevel text = .ok ([], bus) := by
    intro text
    rw [doLog, hnone]
  simp only [dump, hlog, hp.readData, doLogs_of_none call hnone, Stop.lift,
    bind, Except.bind, pure, Except.pure]
  rfl

/-- **Without a message** the encoder is ready for the packet, whatever
`writePacket` would do. -/
theorem encodeStart_quiet (hp : (bus.store ptr).Holds capacity cmd data)
    (hquiet : bus.encoder.debug = false ∨ bus.logPacket = none) :
    ∃ q, q.Holds capacity cmd data ∧
      ∀ call, encodeStart crc8 lib call bus ptr = .ok ([],
        { bus.setPacket ptr q with
          packet := some ptr
          encoder := { bus.encoder with state := .idle } }) := by
  obtain ⟨q, hcrc, hq, _⟩ := hp.calcAndStoreCrc crc8
  refine ⟨q, hq, ?_⟩
  intro call
  simp only [encodeStart, hcrc, Stop.lift, bind, Except.bind, pure,
    Except.pure]
  by_cases hdebug : (bus.setPacket ptr q).encoder.debug = true
  · rw [if_pos hdebug]
    have hnone : bus.logPacket = none := by
      rcases hquiet with hoff | hnone
      · rw [show bus.encoder.debug = true from hdebug] at hoff
        cases hoff
      · exact hnone
    have hdumped : dump lib call
        { bus.setPacket ptr q with packet := some ptr } "Sent" ptr =
        .ok ([], { bus.setPacket ptr q with packet := some ptr }) := by
      apply dump_of_none lib call
      · exact hnone
      · show Packet.Holds ((bus.setPacket ptr q).store ptr) capacity cmd data
        rw [store_setPacket_self]
        exact hq
    rw [hdumped]
    rfl
  · rw [if_neg hdebug]
    rfl

/-- **Without a message** the frame of the packet is written. -/
theorem writePacket_quiet (hp : (bus.store ptr).Holds capacity cmd data)
    (hquiet : bus.encoder.debug = false ∨ bus.logPacket = none)
    (byte : UInt8) :
    ∃ bus', ∀ call, writePacket crc8 lib call byte (bus, ptr) =
      .ok (.none, frame crc8 cmd data, bus') := by
  obtain ⟨q, hq, hstart⟩ := encodeStart_quiet crc8 lib hp hquiet
  have howes : PacketEncoder.Owes crc8 cmd data
      { bus.encoder with packet := some q, state := .idle }
      (frame crc8 cmd data) := ⟨⟨q, capacity, rfl, hq⟩, rfl⟩
  obtain ⟨s, hs⟩ := (PacketEncoder.pays crc8).drain_eq (s :=
    ({ bus.encoder with packet := some q, state := .idle }, byte)) howes
  refine ⟨{ bus.setPacket ptr q with packet := some ptr, encoder := s.1 }, ?_⟩
  intro call
  have hopen : openEncoder
      { bus.setPacket ptr q with
        packet := some ptr
        encoder := { bus.encoder with state := .idle } } =
      { bus.encoder with packet := some q, state := .idle } := by
    simp only [openEncoder, Option.map_some, store_setPacket_self]
  simp only [writePacket, hstart, hopen, hs, Stop.lift, bind, Except.bind,
    pure, Except.pure]
  rfl

end Quiet

/-! ## With a message -/

section Loud

variable (crc8 : UInt8 → UInt8 → UInt8) (lib : DuinoLog)
  {call : LogBus × PacketPtr →
    Except (Stop Fault) (ErrorCode × List UInt8 × LogBus)}
  {bus : LogBus} {ptr log : PacketPtr} {byte : UInt8}

/-- The bus dumps what it encodes, and logs over itself. -/
def Loud (bus : LogBus) (log : PacketPtr) : Prop :=
  bus.encoder.debug = true ∧ bus.logPacket = some log

/-- **With a message**, `writePacket` only returns if it was called for the
log packet, and that call returned. -/
theorem call_of_writePacket (h : bus.Loud log)
    {r : ErrorCode × List UInt8 × LogBus}
    (hwrite : writePacket crc8 lib call byte (bus, ptr) = .ok r) :
    ∃ bus' r', bus'.Loud log ∧ call (bus', log) = .ok r' := by
  obtain ⟨hdebug, hlog⟩ := h
  obtain ⟨started, hstart, _⟩ := bind_ok hwrite
  obtain ⟨packet, _, hdump⟩ := bind_ok hstart
  dsimp only at hdump
  rw [if_pos (show (bus.setPacket ptr packet).encoder.debug = true from
    hdebug)] at hdump
  obtain ⟨dumped, hdump, _⟩ := bind_ok hdump
  obtain ⟨message, hmessage, _⟩ := bind_ok hdump
  rw [doLog, show (bus.setPacket ptr packet).logPacket = some log from hlog]
    at hmessage
  obtain ⟨filled, _, hcall⟩ := bind_ok hmessage
  obtain ⟨r', hcall, _⟩ := bind_ok hcall
  refine ⟨_, r', ?_, hcall⟩
  exact ⟨hdebug, rfl⟩

/-- With a message, `writePacket` does not return at any depth. -/
theorem writePacket_ne_ok (h : bus.Loud log) (depth : Nat)
    (r : ErrorCode × List UInt8 × LogBus) :
    nested (writePacket crc8 lib · byte) depth (bus, ptr) ≠ .ok r := by
  apply nested_ne_ok (S := fun arg => arg.1.Loud log)
  · intro call hcall arg hloud r hwrite
    obtain ⟨bus', r', hloud', hreturns⟩ :=
      call_of_writePacket crc8 lib hloud hwrite
    exact hcall (bus', log) hloud' r' hreturns
  · exact h

/-- The packet to write is in order, and the log packet has room for a
message. -/
def Ready (arg : LogBus × PacketPtr) : Prop :=
  (arg.1.store arg.2).dataLen ≤ (arg.1.store arg.2).maxDataLen ∧
    ∃ log, arg.1.Loud log ∧ 3 ≤ (arg.1.store log).maxDataLen

/-- A message is filled in, and `writePacket` is called for it. -/
theorem doLog_deep (hcall : ∀ arg, Ready arg → call arg = .error .deep)
    (h : bus.Loud log) (hroom : 3 ≤ (bus.store log).maxDataLen)
    (level : UInt8) (text : List UInt8) :
    doLog call bus level text = .error .deep := by
  obtain ⟨q, hfill, hq⟩ := fillLog_eq (bus.store log) level text hroom
  have hready : Ready (bus.setPacket log q, log) := by
    refine ⟨?_, log, h, ?_⟩
    · rw [store_setPacket_self]
      exact hq.fits
    · rw [store_setPacket_self, hq.maxDataLen]
      exact hroom
  rw [doLog, h.2]
  simp only [hfill, Stop.lift, hcall _ hready, bind, Except.bind]

/-- With a message, `writePacket` is called for the log packet before anything
is written, and ends as that call does if it fails. -/
theorem writePacket_deep (hcall : ∀ arg, Ready arg → call arg = .error .deep)
    {arg : LogBus × PacketPtr} (h : Ready arg) :
    writePacket crc8 lib call byte arg = .error .deep := by
  obtain ⟨bus, ptr⟩ := arg
  obtain ⟨hfits, log, ⟨hdebug, hlog⟩, hroom⟩ := h
  obtain ⟨q, hcrc, hq, _⟩ := (Packet.holds_self hfits).calcAndStoreCrc crc8
  have hloud : Loud { bus.setPacket ptr q with packet := some ptr } log :=
    ⟨hdebug, hlog⟩
  have hroom' : 3 ≤ ((bus.setPacket ptr q).store log).maxDataLen := by
    by_cases hsame : log = ptr
    · rw [hsame, store_setPacket_self, hq.maxDataLen, ← hsame]
      exact hroom
    · rw [show (bus.setPacket ptr q).store log = bus.store log from
        if_neg hsame]
      exact hroom
  have hlogged := doLog_deep hcall hloud hroom'
  have hdump : dump lib call { bus.setPacket ptr q with packet := some ptr }
      "Sent" ptr = .error .deep := by
    simp only [dump, hlogged, bind, Except.bind]
  simp only [writePacket, encodeStart, hcrc, Stop.lift, bind, Except.bind,
    if_pos hloud.1, hdump]

end Loud

end LogBus

end DuinoBus.Cpp
