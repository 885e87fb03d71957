import DuinoBus.Cpp.LoggingBus
import DuinoBus.LogDelivery
import DuinoBus.LoggedWrite

/-!
# The device with its own logger

A device whose logger writes to its own bus sends more than responses: it
complains about frames with a wrong CRC and about commands that it does not
know.  And it can be stopped from outside.  A `DEBUG` command with the lowest
flag set makes it dump the response before it is written, over the bus, and
the calls of `writePacket` that this takes never end.

`react` says, byte by byte, what such a device does, on the receiver of the
wire format; `reacts` says that the code does that, on any input.
-/

namespace DuinoBus.LoggingDevice

open DuinoBus.Wire
open DuinoBus.Verified
open DuinoBus.Cpp
open DuinoBus.Cpp.CorePacketHandler
open DuinoBus.LogDelivery (logData Logs Keeps doLog_eq keeps_of_writePacket)

/-! ## What the device does -/

/-- The frames of some packets, one after the other. -/
def frames (crc8 : UInt8 → UInt8 → UInt8)
    (packets : List (UInt8 × List UInt8)) : List UInt8 :=
  packets.flatMap fun f => frame crc8 f.1 f.2

/-- The CRC that the decoder takes from its packet at the end of a frame, and
the one that it expects. -/
def sums (crc8 : UInt8 → UInt8 → UInt8) : Phase UInt8 → UInt8 × UInt8
  | .body _ cmd buf => (buf.getLastD 0, checksum crc8 cmd buf.dropLast)
  | _ => (0, 0)

theorem sums_concat (crc8 : UInt8 → UInt8 → UInt8) (e : Bool) (cmd : UInt8)
    (body : List UInt8) (sum : UInt8) :
    sums crc8 (.body e cmd (body ++ [sum])) =
      (sum, checksum crc8 cmd body) := by
  simp [sums]

/-- Whether a command switches debugging on. -/
def SwitchesOn (env : Surroundings) (cmd : UInt8) (data : List UInt8) : Prop :=
  cmd = DEBUG ∧ debugFlags env data &&& 0x01 ≠ 0

instance (env : Surroundings) (cmd : UInt8) (data : List UInt8) :
    Decidable (SwitchesOn env cmd data) :=
  inferInstanceAs (Decidable (_ ∧ _))

section Reference

variable (crc8 : UInt8 → UInt8 → UInt8) (lib : DuinoErrorLog)
  (capacity rspCapacity logCapacity : Nat) (debug : Bool)

/-- The log packet of an error. -/
def complaint (fmt : String) (args : List FormatArg) : UInt8 × List UInt8 :=
  (LogBus.LOG, logData logCapacity lib.errorLevel (lib.vStrXPrintf fmt args))

/-- What is sent for a command: the response if it is known, and else a
complaint. -/
def answer (env : Surroundings) (cmd : UInt8) (data : List UInt8) :
    Except (Stop Fault) (List (UInt8 × List UInt8)) :=
  if rspCapacity < replyLength cmd data then .error (.fault .assertFailed)
  else if SwitchesOn env cmd data then .error .deep
  else
    match reply env cmd data with
    | some rsp => .ok [(cmd, rsp)]
    | none => .ok [complaint lib logCapacity LoggingBus.UNHANDLED_FORMAT
        [.hex8 cmd]]

/-- What is sent on an answer of the receiver. -/
def reaction (env : Surroundings) (ph : Phase UInt8) :
    Verdict UInt8 → Except (Stop Fault) (List (UInt8 × List UInt8))
  | .pending => .ok []
  | .short => .ok []
  | .overflow => if debug then .error .deep else .ok []
  | .mismatch =>
      if debug then .error .deep
      else .ok [complaint lib logCapacity LoggingBus.CRC_FORMAT
        [.hex8 (sums crc8 ph).1, .hex8 (sums crc8 ph).2]]
  | .accepted cmd data _ =>
      if debug then .error .deep
      else answer lib rspCapacity logCapacity env cmd data

/-- **The device, byte by byte**: the packets that it sends. -/
def react (ph : Phase UInt8) (r : Bus.Round Surroundings) :
    Except (Stop Fault) (List (UInt8 × List UInt8) × Phase UInt8) := do
  let next := (deviceReceiver crc8 capacity).step ph r.received
  let packets ← reaction crc8 lib rspCapacity logCapacity debug r.env ph next.2
  return (packets, next.1)

end Reference

/-! ## The decoder -/

section Decoder

variable {crc8 : UInt8 → UInt8 → UInt8}

private theorem debug_of_decodeData {d d' : PacketDecoder} {byte : UInt8}
    {err : ErrorCode} (h : d.decodeData crc8 byte = .ok (err, d')) :
    d'.debug = d.debug := by
  unfold PacketDecoder.decodeData at h
  split at h
  · split at h
    · cases h
      rfl
    · obtain ⟨rcvd, _, h⟩ := bind_ok h
      obtain ⟨expectedCrc, _, h⟩ := bind_ok h
      split at h
      · obtain ⟨_, _, h⟩ := bind_ok h
        cases h
        rfl
      · obtain ⟨_, _, h⟩ := bind_ok h
        cases h
        rfl
  · split at h
    · obtain ⟨_, _, h⟩ := bind_ok h
      cases h
      rfl
    · obtain ⟨packet, _, h⟩ := bind_ok h
      cases h
      rfl

private theorem debug_of_decodeState {d d' : PacketDecoder} {byte : UInt8}
    {err : ErrorCode} (h : d.decodeState crc8 byte = .ok (err, d')) :
    d'.debug = d.debug := by
  unfold PacketDecoder.decodeState at h
  split at h
  · unfold PacketDecoder.decodeIdle at h
    split at h
    · cases h
      rfl
    · cases h
      rfl
  · unfold PacketDecoder.decodeCommand at h
    split at h
    · cases h
      rfl
    · obtain ⟨packet, _, h⟩ := bind_ok h
      cases h
      rfl
  · exact debug_of_decodeData h
  · cases h
    rfl

/-- Decoding a byte leaves the debug flag alone. -/
theorem debug_of_decodeByte {d d' : PacketDecoder} {byte : UInt8}
    {err : ErrorCode} (h : d.decodeByte crc8 byte = .ok (err, d')) :
    d'.debug = d.debug := by
  unfold PacketDecoder.decodeByte at h
  split at h
  · exact debug_of_decodeState h
  · split at h
    · split at h
      · exact debug_of_decodeState h
      · split at h
        · exact debug_of_decodeState h
        · exact debug_of_decodeState h
    · split at h
      · cases h
        rfl
      · exact debug_of_decodeState h

/-- A frame that is refused for its CRC leaves the two sums in the packet. -/
theorem decodeByte_mismatch {d : PacketDecoder} {capacity : Nat} {cmd : UInt8}
    {body : List UInt8} {sum : UInt8}
    (h : d.Tracks capacity (.body false cmd (body ++ [sum])))
    (hsum : sum ≠ checksum crc8 cmd body) :
    ∃ q, d.decodeByte crc8 END = .ok (.crc, { d with packet := q }) ∧
      q.Holds capacity cmd body ∧ q.crc = sum := by
  obtain ⟨hstate, hescape, hp⟩ := h
  obtain ⟨q, hextract, hq, hcrc⟩ := hp.extractCrc
  have hdataLen := hp.dataLen
  rw [List.length_append, List.length_singleton] at hdataLen
  have hne : d.state ≠ .idle := by
    rw [hstate]
    decide
  refine ⟨q, ?_, hq, hcrc⟩
  rw [PacketDecoder.decodeByte_bare crc8 END hne hescape,
    if_neg (show END ≠ ESC by decide),
    PacketDecoder.decodeState_data crc8 hstate, PacketDecoder.decodeData,
    if_pos ⟨rfl, hescape⟩, if_neg (by omega), hextract]
  simp only [bind, Except.bind, pure, Except.pure, hq.calcCrc crc8,
    PacketDecoder.dumpIf_ok d.debug hq, if_neg hsum]

end Decoder

/-! ## The bus in the device loop -/

/-- A device with three packets, a core handler and a logger on its own bus. -/
def device (store : PacketPtr → Packet) (cmd rsp log : PacketPtr)
    (escapeChar : UInt8) (debug : Bool) : LoggingBus Surroundings :=
  ((LoggingBus.new store cmd rsp (some log) escapeChar).add handlePacket
    asStr).setDebug debug

/-- The bus is in the device loop: its decoder is in a phase of the receiver,
the core handler is its only one, and its three packets have their room and
are different ones. -/
structure Serving (capacity rspCapacity logCapacity : Nat) (log : PacketPtr)
    (debug : Bool) (d : LoggingBus Surroundings) (ph : Phase UInt8) :
    Prop where
  tracks : d.openDecoder.Tracks capacity ph
  decoder : d.decoder.debug = debug
  encoder : d.bus.encoder.debug = debug
  handlers : d.handlers = [handlePacket]
  logPacket : d.bus.logPacket = some log
  logRoom : (d.bus.store log).maxDataLen = logCapacity
  rspRoom : (d.bus.store d.rspPacket).maxDataLen = rspCapacity
  cmd_ne_rsp : d.cmdPacket ≠ d.rspPacket
  cmd_ne_log : d.cmdPacket ≠ log
  rsp_ne_log : d.rspPacket ≠ log

section Serving

variable {capacity rspCapacity logCapacity : Nat} {log : PacketPtr}
  {debug : Bool} {d : LoggingBus Surroundings} {ph : Phase UInt8}

/-- The device that starts. -/
theorem serving_new (store : PacketPtr → Packet) {cmd rsp log : PacketPtr}
    (escapeChar : UInt8) (debug : Bool) (hcmd_rsp : cmd ≠ rsp)
    (hcmd_log : cmd ≠ log) (hrsp_log : rsp ≠ log) :
    Serving (store cmd).maxDataLen (store rsp).maxDataLen
      (store log).maxDataLen log debug
      (device store cmd rsp log escapeChar debug) .idle where
  tracks := ⟨rfl, rfl, rfl⟩
  decoder := rfl
  encoder := rfl
  handlers := rfl
  logPacket := rfl
  logRoom := rfl
  rspRoom := rfl
  cmd_ne_rsp := hcmd_rsp
  cmd_ne_log := hcmd_log
  rsp_ne_log := hrsp_log

/-- Logging leaves the device in its loop. -/
theorem Serving.logged
    (h : Serving capacity rspCapacity logCapacity log debug d ph)
    {bus : LogBus} (hkeeps : Keeps d.bus bus log) :
    Serving capacity rspCapacity logCapacity log debug { d with bus } ph where
  tracks := by
    have hcmd : bus.store d.cmdPacket = d.bus.store d.cmdPacket :=
      hkeeps.others _ h.cmd_ne_log
    show PacketDecoder.Tracks capacity
      { d.decoder with packet := bus.store d.cmdPacket } ph
    rw [hcmd]
    exact h.tracks
  decoder := h.decoder
  encoder := hkeeps.debug.trans h.encoder
  handlers := h.handlers
  logPacket := hkeeps.logPacket.trans h.logPacket
  logRoom := hkeeps.room.trans h.logRoom
  rspRoom := by
    rw [show bus.store d.rspPacket = d.bus.store d.rspPacket from
      hkeeps.others _ h.rsp_ne_log]
    exact h.rspRoom
  cmd_ne_rsp := h.cmd_ne_rsp
  cmd_ne_log := h.cmd_ne_log
  rsp_ne_log := h.rsp_ne_log

/-- Filling or writing the response packet leaves the device in its loop. -/
theorem Serving.responded
    (h : Serving capacity rspCapacity logCapacity log debug d ph)
    {bus : LogBus} (hkeeps : Keeps d.bus bus d.rspPacket) :
    Serving capacity rspCapacity logCapacity log debug { d with bus } ph where
  tracks := by
    have hcmd : bus.store d.cmdPacket = d.bus.store d.cmdPacket :=
      hkeeps.others _ h.cmd_ne_rsp
    show PacketDecoder.Tracks capacity
      { d.decoder with packet := bus.store d.cmdPacket } ph
    rw [hcmd]
    exact h.tracks
  decoder := h.decoder
  encoder := hkeeps.debug.trans h.encoder
  handlers := h.handlers
  logPacket := hkeeps.logPacket.trans h.logPacket
  logRoom := by
    rw [show bus.store log = d.bus.store log from
      hkeeps.others _ h.rsp_ne_log.symm]
    exact h.logRoom
  rspRoom := hkeeps.room.trans h.rspRoom
  cmd_ne_rsp := h.cmd_ne_rsp
  cmd_ne_log := h.cmd_ne_log
  rsp_ne_log := h.rsp_ne_log

/-- The decoder has run. -/
theorem Serving.closeDecoder
    (h : Serving capacity rspCapacity logCapacity log debug d ph)
    {decoder : PacketDecoder} {ph' : Phase UInt8}
    (htracks : decoder.Tracks capacity ph') (hdebug : decoder.debug = debug) :
    Serving capacity rspCapacity logCapacity log debug
      (d.closeDecoder decoder) ph' where
  tracks := by
    show PacketDecoder.Tracks capacity { decoder with
      packet := (d.bus.setPacket d.cmdPacket decoder.packet).store
        d.cmdPacket } ph'
    rw [LogBus.store_setPacket_self]
    exact htracks
  decoder := hdebug
  encoder := h.encoder
  handlers := h.handlers
  logPacket := h.logPacket
  logRoom := by
    rw [← h.logRoom]
    exact congrArg Packet.maxDataLen (if_neg h.cmd_ne_log.symm)
  rspRoom := by
    rw [← h.rspRoom]
    exact congrArg Packet.maxDataLen (if_neg h.cmd_ne_rsp.symm)
  cmd_ne_rsp := h.cmd_ne_rsp
  cmd_ne_log := h.cmd_ne_log
  rsp_ne_log := h.rsp_ne_log

theorem Serving.setDebug
    (h : Serving capacity rspCapacity logCapacity log debug d ph)
    (debug' : Bool) :
    Serving capacity rspCapacity logCapacity log debug' (d.setDebug debug')
      ph where
  tracks := by
    cases ph <;> exact h.tracks
  decoder := rfl
  encoder := rfl
  handlers := h.handlers
  logPacket := h.logPacket
  logRoom := h.logRoom
  rspRoom := h.rspRoom
  cmd_ne_rsp := h.cmd_ne_rsp
  cmd_ne_log := h.cmd_ne_log
  rsp_ne_log := h.rsp_ne_log

/-- A handler has been called. -/
theorem Serving.called
    (h : Serving capacity rspCapacity logCapacity log debug d ph)
    (r : Handled) (hr : r.rsp.maxDataLen = rspCapacity) :
    Serving capacity rspCapacity logCapacity log (r.debug.getD debug)
      (d.called r) ph := by
  have hset := h.responded (Keeps.setPacket
    (show r.rsp.maxDataLen = (d.bus.store d.rspPacket).maxDataLen from
      hr.trans h.rspRoom.symm))
  cases hdebug : r.debug with
  | none =>
      rw [LoggingBus.called, hdebug]
      exact hset
  | some debug' =>
      rw [LoggingBus.called, hdebug]
      exact hset.setDebug debug'

theorem rspPacket_called (d : LoggingBus Surroundings) (r : Handled) :
    (d.called r).bus.store (d.called r).rspPacket = r.rsp := by
  unfold LoggingBus.called
  split
  · exact LogBus.store_setPacket_self d.bus d.rspPacket r.rsp
  · exact LogBus.store_setPacket_self d.bus d.rspPacket r.rsp

theorem cmdPacket_called (hne : d.cmdPacket ≠ d.rspPacket) (r : Handled) :
    (d.called r).bus.store (d.called r).cmdPacket = d.bus.store d.cmdPacket := by
  unfold LoggingBus.called
  split
  · exact if_neg hne
  · exact if_neg hne

/-- A quiet bus can log. -/
theorem Serving.logs
    (h : Serving capacity rspCapacity logCapacity log false d ph) :
    Logs d.bus log logCapacity := ⟨h.encoder, h.logPacket, h.logRoom⟩

/-- A bus in debug mode dumps whatever it writes. -/
theorem Serving.loud
    (h : Serving capacity rspCapacity logCapacity log true d ph) :
    d.bus.Loud log := ⟨h.encoder, h.logPacket⟩

end Serving

/-! ## Logging -/

section Logging

variable (crc8 : UInt8 → UInt8 → UInt8) (lib : DuinoErrorLog) (uninit : UInt8)
  {capacity rspCapacity logCapacity : Nat} {log : PacketPtr}
  {d : LoggingBus Surroundings} {ph : Phase UInt8}

/-- An error is logged as the frame of a complaint. -/
theorem logError_eq (call : LogBus × PacketPtr →
      Except (Stop Fault) (ErrorCode × List UInt8 × LogBus))
    (h : Serving capacity rspCapacity logCapacity log false d ph)
    (hroom : 3 ≤ logCapacity) (fmt : String) (args : List FormatArg) :
    ∃ d', d.logError lib (LogBus.writePacket crc8 lib.toDuinoLog call uninit)
        fmt args = .ok (frames crc8 [complaint lib logCapacity fmt args], d') ∧
      Serving capacity rspCapacity logCapacity log false d' ph := by
  obtain ⟨bus', hlog, hkeeps⟩ := doLog_eq crc8 lib.toDuinoLog call uninit
    h.logs hroom lib.errorLevel (lib.vStrXPrintf fmt args)
  refine ⟨{ d with bus := bus' }, ?_, h.logged hkeeps⟩
  rw [LoggingBus.logError, hlog]
  simp only [bind, Except.bind, pure, Except.pure, frames, List.flatMap_cons,
    List.flatMap_nil, List.append_nil, complaint]

/-- In debug mode there is no end to an error. -/
theorem logError_deep
    (h : Serving capacity rspCapacity logCapacity log true d ph)
    (hroom : 3 ≤ logCapacity) (depth : Nat) (fmt : String)
    (args : List FormatArg) :
    d.logError lib (nested (LogBus.writePacket crc8 lib.toDuinoLog · uninit)
      depth) fmt args = .error .deep := by
  have hdeep := LogBus.doLog_deep
    (fun arg harg => LoggedWrite.endless crc8 lib.toDuinoLog uninit harg depth)
    h.loud (by rw [h.logRoom]; exact hroom) lib.errorLevel
    (lib.vStrXPrintf fmt args)
  rw [LoggingBus.logError, hdeep]
  rfl

/-- In debug mode there is no end to a dump. -/
theorem dumpCmd_deep
    (h : Serving capacity rspCapacity logCapacity log true d ph)
    (hroom : 3 ≤ logCapacity) (depth : Nat) (label : String) :
    d.dumpCmd lib (nested (LogBus.writePacket crc8 lib.toDuinoLog · uninit)
      depth) label = .error .deep := by
  have hdeep := fun text => LogBus.doLog_deep
    (fun arg harg => LoggedWrite.endless crc8 lib.toDuinoLog uninit harg depth)
    h.loud (by rw [h.logRoom]; exact hroom) lib.toDuinoLog.infoLevel text
  rw [LoggingBus.dumpCmd, if_pos h.decoder, LogBus.dump]
  simp only [hdeep, bind, Except.bind]

/-- Without debug mode nothing is dumped. -/
theorem dumpCmd_quiet (call : LogBus × PacketPtr →
      Except (Stop Fault) (ErrorCode × List UInt8 × LogBus))
    (h : Serving capacity rspCapacity logCapacity log false d ph)
    (label : String) : d.dumpCmd lib call label = .ok ([], d) := by
  rw [LoggingBus.dumpCmd, if_neg (by rw [h.decoder]; decide)]

end Logging

/-! ## A packet is handled -/

/-- Only `DEBUG` changes the debug flag. -/
theorem debug_of_handlePacket {env : Surroundings} {cmdPacket rsp : Packet}
    {capacity : Nat} {cmd : UInt8} {data : List UInt8} {r : Handled}
    (hc : cmdPacket.Holds capacity cmd data)
    (h : handlePacket env cmdPacket rsp = .ok r) :
    r.debug.getD false = decide (SwitchesOn env cmd data) := by
  rw [handlePacket, hc.command] at h
  by_cases hping : cmd = PING
  · rw [if_pos hping] at h
    obtain ⟨_, _, h⟩ := bind_ok h
    obtain ⟨_, _, h⟩ := bind_ok h
    cases h
    rw [hping]
    rfl
  · rw [if_neg hping] at h
    by_cases hdebug : cmd = DEBUG
    · rw [if_pos hdebug] at h
      obtain ⟨done, u, hunpack⟩ :
          ∃ done u, (Unpacker.new cmdPacket).unpack env.flags =
            .ok (done, debugFlags env data, u) :=
        Unpacker.unpack_new hc env.flags
      rw [handleDebug, hunpack] at h
      obtain ⟨unpacked, hunpacked, h⟩ := bind_ok h
      cases hunpacked
      obtain ⟨_, _, h⟩ := bind_ok h
      cases h
      simp only [SwitchesOn, hdebug, true_and, Option.getD_some]
    · rw [if_neg hdebug] at h
      have hoff : decide (SwitchesOn env cmd data) = false :=
        decide_eq_false fun hon => hdebug hon.1
      rw [hoff]
      split at h
      · obtain ⟨_, _, h⟩ := bind_ok h
        obtain ⟨_, _, h⟩ := bind_ok h
        obtain ⟨_, _, h⟩ := bind_ok h
        cases h
        rfl
      · split at h
        · obtain ⟨_, _, h⟩ := bind_ok h
          obtain ⟨_, _, h⟩ := bind_ok h
          obtain ⟨_, _, h⟩ := bind_ok h
          obtain ⟨_, _, h⟩ := bind_ok h
          obtain ⟨_, _, h⟩ := bind_ok h
          cases h
          rfl
        · cases h
          rfl

section Handling

variable (crc8 : UInt8 → UInt8 → UInt8) (lib : DuinoErrorLog) (uninit : UInt8)
  {capacity rspCapacity logCapacity : Nat} {log : PacketPtr}
  {d : LoggingBus Surroundings} {ph : Phase UInt8}

/-- A response with a command is written, if nothing is dumped. -/
theorem respond_eq (depth : Nat)
    (h : Serving capacity rspCapacity logCapacity log false d ph)
    {cmd : UInt8} {rsp : List UInt8} (hcmd : cmd ≠ 0)
    (hrsp : (d.bus.store d.rspPacket).Holds rspCapacity cmd rsp) :
    ∃ d', d.respond lib (nested (LogBus.writePacket crc8 lib.toDuinoLog ·
        uninit) (depth + 1)) = .ok (frames crc8 [(cmd, rsp)], d') ∧
      Serving capacity rspCapacity logCapacity log false d' ph := by
  obtain ⟨bus', hwrite⟩ := LogBus.writePacket_quiet crc8 lib.toDuinoLog hrsp
    (.inl h.encoder) uninit
  have hcall := hwrite
    (nested (LogBus.writePacket crc8 lib.toDuinoLog · uninit) depth)
  refine ⟨{ d with bus := bus' }, ?_, h.responded
    (keeps_of_writePacket crc8 lib.toDuinoLog _ uninit hrsp h.encoder hcall)⟩
  rw [LoggingBus.respond, if_pos (by rw [hrsp.command]; exact hcmd), nested_succ,
    hcall]
  simp only [bind, Except.bind, pure, Except.pure, frames, List.flatMap_cons,
    List.flatMap_nil, List.append_nil]

/-- In debug mode there is no end to a response. -/
theorem respond_deep (depth : Nat)
    (h : Serving capacity rspCapacity logCapacity log true d ph)
    (hroom : 3 ≤ logCapacity) {cmd : UInt8} {rsp : List UInt8} (hcmd : cmd ≠ 0)
    (hrsp : (d.bus.store d.rspPacket).Holds rspCapacity cmd rsp) :
    d.respond lib (nested (LogBus.writePacket crc8 lib.toDuinoLog · uninit)
      depth) = .error .deep := by
  have hready : LogBus.Ready (d.bus, d.rspPacket) :=
    ⟨hrsp.fits, log, h.loud, by rw [h.logRoom]; exact hroom⟩
  rw [LoggingBus.respond, if_pos (by rw [hrsp.command]; exact hcmd),
    LoggedWrite.endless crc8 lib.toDuinoLog uninit hready depth]
  rfl

/-- What handling a packet comes to: what was to be sent is written, and the
device goes on; or it stops. -/
def Handles (capacity rspCapacity logCapacity : Nat) (log : PacketPtr)
    (ph : Phase UInt8)
    (call : Except (Stop Fault) (Bool × List UInt8 × LoggingBus Surroundings)) :
    Except (Stop Fault) (List (UInt8 × List UInt8)) → Prop
  | .ok packets => ∃ handled d',
      call = .ok (handled, frames crc8 packets, d') ∧
        Serving capacity rspCapacity logCapacity log false d' ph
  | .error e => call = .error e

/-- Dispatching to the core handler, with an empty response packet. -/
private theorem dispatch_core (depth : Nat)
    (h : Serving capacity rspCapacity logCapacity log false d ph)
    (hroom : 3 ≤ logCapacity) {cmd : UInt8} {data : List UInt8}
    (hc : (d.bus.store d.cmdPacket).Holds capacity cmd data)
    (hr : (d.bus.store d.rspPacket).Holds rspCapacity 0 [])
    (env : Surroundings) :
    Handles crc8 capacity rspCapacity logCapacity log ph
      (LoggingBus.dispatch lib (nested (LogBus.writePacket crc8
        lib.toDuinoLog · uninit) (depth + 1)) env [handlePacket] d)
      (answer lib rspCapacity logCapacity env cmd data) := by
  have hreplies := handlePacket_eq env hc hr
  rw [Replies, length_reply] at hreplies
  rw [answer, LoggingBus.dispatch]
  by_cases hfits : replyLength cmd data ≤ rspCapacity
  · rw [if_pos hfits] at hreplies
    rw [if_neg (Nat.not_lt.mpr hfits)]
    obtain ⟨r, hcall, hgives⟩ := hreplies
    have hdebug := debug_of_handlePacket hc hcall
    rw [hcall]
    simp only [Stop.lift, bind, Except.bind]
    cases hreply : reply env cmd data with
    | some rsp =>
        rw [hreply] at hgives
        obtain ⟨hhandled, hholds⟩ := hgives
        have hcalled := h.called r hholds.maxDataLen
        have hholds' : ((d.called r).bus.store (d.called r).rspPacket).Holds
            rspCapacity cmd rsp := by
          rw [rspPacket_called]
          exact hholds
        have hne := ne_zero_of_reply hreply
        simp only [hhandled, if_true]
        by_cases hon : SwitchesOn env cmd data
        · rw [hdebug, decide_eq_true hon] at hcalled
          rw [if_pos hon]
          rw [respond_deep crc8 lib uninit (depth + 1) hcalled hroom hne
            hholds']
          rfl
        · rw [hdebug, decide_eq_false hon] at hcalled
          rw [if_neg hon]
          obtain ⟨d', hrespond, hserving⟩ :=
            respond_eq crc8 lib uninit depth hcalled hne hholds'
          exact ⟨true, d', by rw [hrespond]; rfl, hserving⟩
    | none =>
        rw [hreply] at hgives
        obtain ⟨hhandled, hholds⟩ := hgives
        have hcalled := h.called r hholds.maxDataLen
        have hoff : ¬ SwitchesOn env cmd data := by
          rintro ⟨rfl, _⟩
          have hsome := (reply_isSome_iff env DEBUG data).mpr (by decide)
          rw [hreply] at hsome
          cases hsome
        rw [hdebug, decide_eq_false hoff] at hcalled
        rw [if_neg hoff]
        simp only [hhandled, Bool.false_eq_true, if_false]
        have hcmd : ((d.called r).bus.store (d.called r).cmdPacket).command =
            cmd := by
          rw [cmdPacket_called h.cmd_ne_rsp]
          exact hc.command
        obtain ⟨d', herror, hserving⟩ := logError_eq crc8 lib uninit
          (nested (LogBus.writePacket crc8 lib.toDuinoLog · uninit) depth)
          hcalled hroom LoggingBus.UNHANDLED_FORMAT [.hex8 cmd]
        refine ⟨false, d', ?_, hserving⟩
        rw [LoggingBus.dispatch, hcmd, nested_succ, herror]
        rfl
  · rw [if_neg hfits] at hreplies
    rw [if_pos (Nat.lt_of_not_le hfits), hreplies]
    rfl

/-- **Handling a packet.** -/
theorem handles_packet (depth : Nat)
    (h : Serving capacity rspCapacity logCapacity log false d ph)
    (hroom : 3 ≤ logCapacity) {cmd : UInt8} {data : List UInt8}
    (hc : (d.bus.store d.cmdPacket).Holds capacity cmd data)
    (env : Surroundings) :
    Handles crc8 capacity rspCapacity logCapacity log ph
      (d.handlePacket lib (nested (LogBus.writePacket crc8
        lib.toDuinoLog · uninit) (depth + 1)) env)
      (answer lib rspCapacity logCapacity env cmd data) := by
  obtain ⟨q, hset, hq⟩ :=
    ((d.bus.store d.rspPacket).setCommand 0).setData_holds [] (Nat.zero_le _)
  have hmax : ((d.bus.store d.rspPacket).setCommand 0).maxDataLen =
      rspCapacity := h.rspRoom
  rw [hmax] at hq
  have hserving := h.responded
    (Keeps.setPacket (hq.maxDataLen.trans h.rspRoom.symm))
  have hc' : ((d.bus.setPacket d.rspPacket q).store d.cmdPacket).Holds capacity
      cmd data := by
    rw [show (d.bus.setPacket d.rspPacket q).store d.cmdPacket =
      d.bus.store d.cmdPacket from if_neg h.cmd_ne_rsp]
    exact hc
  have hr : ((d.bus.setPacket d.rspPacket q).store d.rspPacket).Holds
      rspCapacity 0 [] := by
    rw [LogBus.store_setPacket_self]
    exact hq
  have hdispatch := dispatch_core crc8 lib uninit depth hserving hroom hc' hr
    env
  rw [← h.handlers] at hdispatch
  rw [LoggingBus.handlePacket, hset]
  exact hdispatch

end Handling

/-! ## The device loop -/

section Loop

variable (crc8 : UInt8 → UInt8 → UInt8) (lib : DuinoErrorLog)
  {capacity rspCapacity logCapacity : Nat} {log : PacketPtr} {debug : Bool}
  {d : LoggingBus Surroundings} {ph : Phase UInt8}

/-- A round that goes on is like the reaction to the verdict. -/
private theorem alike_of_ok {depth : Nat} {r : Bus.Round Surroundings}
    {packets : List (UInt8 × List UInt8)} {d' : LoggingBus Surroundings}
    (hreaction : reaction crc8 lib rspCapacity logCapacity debug r.env ph
      ((deviceReceiver crc8 capacity).step ph r.received).2 = .ok packets)
    (hserve : d.serve crc8 lib depth r = .ok (frames crc8 packets, d'))
    (hserving : Serving capacity rspCapacity logCapacity log debug d'
      ((deviceReceiver crc8 capacity).step ph r.received).1) :
    Alike (frames crc8)
      (Serving capacity rspCapacity logCapacity log debug)
      (d.serve crc8 lib depth r)
      (react crc8 lib capacity rspCapacity logCapacity debug ph r) := by
  rw [hserve, react]
  simp only [hreaction, bind, Except.bind, pure, Except.pure]
  exact .ok packets hserving

/-- A round that stops is like the reaction to the verdict. -/
private theorem alike_of_error {depth : Nat} {r : Bus.Round Surroundings}
    {e : Stop Fault}
    (hreaction : reaction crc8 lib rspCapacity logCapacity debug r.env ph
      ((deviceReceiver crc8 capacity).step ph r.received).2 = .error e)
    (hserve : d.serve crc8 lib depth r = .error e) :
    Alike (frames crc8)
      (Serving capacity rspCapacity logCapacity log debug)
      (d.serve crc8 lib depth r)
      (react crc8 lib capacity rspCapacity logCapacity debug ph r) := by
  rw [hserve, react]
  simp only [hreaction, bind, Except.bind]
  exact .error e

section Round

variable {depth : Nat} {r : Bus.Round Surroundings} {err : ErrorCode}
  {decoder : PacketDecoder} {bytes : List UInt8}
  {d' : LoggingBus Surroundings} {e : Stop Fault}

/-- A round whose byte completes no packet. -/
private theorem serve_of_logged
    (hdecode : d.openDecoder.decodeByte crc8 r.received = .ok (err, decoder))
    (herr : err ≠ .none)
    (hlogged : (d.closeDecoder decoder).logDecoded crc8 lib
      (nested (LogBus.writePacket crc8 lib.toDuinoLog · r.uninit) depth) err =
        .ok (bytes, d')) :
    d.serve crc8 lib depth r = .ok (bytes, d') := by
  simp only [LoggingBus.serve, LoggingBus.processByte, hdecode, Stop.lift,
    hlogged, bind, Except.bind, pure, Except.pure, if_neg herr]

/-- A round in which there is no end to the messages of the decoder. -/
private theorem serve_of_deep
    (hdecode : d.openDecoder.decodeByte crc8 r.received = .ok (err, decoder))
    (hlogged : (d.closeDecoder decoder).logDecoded crc8 lib
      (nested (LogBus.writePacket crc8 lib.toDuinoLog · r.uninit) depth) err =
        .error e) :
    d.serve crc8 lib depth r = .error e := by
  simp only [LoggingBus.serve, LoggingBus.processByte, hdecode, Stop.lift,
    hlogged, bind, Except.bind]

/-- A round that completes a packet. -/
private theorem serve_of_accepted
    (hdecode : d.openDecoder.decodeByte crc8 r.received = .ok (.none, decoder))
    (hlogged : (d.closeDecoder decoder).logDecoded crc8 lib
      (nested (LogBus.writePacket crc8 lib.toDuinoLog · r.uninit) depth)
        .none = .ok ([], d.closeDecoder decoder)) :
    d.serve crc8 lib depth r = (do
      let (_, bytes, d) ← (d.closeDecoder decoder).handlePacket lib
        (nested (LogBus.writePacket crc8 lib.toDuinoLog · r.uninit) depth) r.env
      return (bytes, d)) := by
  simp only [LoggingBus.serve, LoggingBus.processByte, hdecode, Stop.lift,
    hlogged, bind, Except.bind, pure, Except.pure, if_true, List.nil_append]

end Round

/-- A refused CRC is logged with the two sums. -/
private theorem alike_mismatch (depth : Nat)
    (h : Serving capacity rspCapacity logCapacity log debug d ph)
    (hroom : 3 ≤ logCapacity) (r : Bus.Round Surroundings)
    (hverdict : ((deviceReceiver crc8 capacity).step ph r.received).2 =
      .mismatch) :
    Alike (frames crc8)
      (Serving capacity rspCapacity logCapacity log debug)
      (d.serve crc8 lib (depth + 1) r)
      (react crc8 lib capacity rspCapacity logCapacity debug ph r) := by
  obtain ⟨hend, cmd, body, sum, rfl, hsum⟩ :=
    Receiver.step_mismatch _ hverdict
  obtain ⟨q, hdecode, hq, hcrc⟩ := decodeByte_mismatch h.tracks hsum
  rw [show END = r.received from hend.symm] at hdecode
  have hstep : (deviceReceiver crc8 capacity).step
      (.body false cmd (body ++ [sum])) r.received =
        (.body false cmd body, .mismatch) := by
    rw [hend, Receiver.step_fin_body, Receiver.close_concat, if_neg hsum]
    rfl
  have htracks : PacketDecoder.Tracks capacity
      { d.openDecoder with packet := q } (.body false cmd body) :=
    ⟨h.tracks.1, h.tracks.2.1, hq⟩
  have hclosed := h.closeDecoder htracks h.decoder
  have hstored : (d.closeDecoder { d.openDecoder with packet := q }).bus.store
      (d.closeDecoder { d.openDecoder with packet := q }).cmdPacket = q :=
    LogBus.store_setPacket_self _ _ _
  have hreaction : reaction crc8 lib rspCapacity logCapacity debug r.env
      (.body false cmd (body ++ [sum])) ((deviceReceiver crc8 capacity).step
        (.body false cmd (body ++ [sum])) r.received).2 =
      if debug then .error .deep
      else .ok [complaint lib logCapacity LoggingBus.CRC_FORMAT
        [.hex8 sum, .hex8 (checksum crc8 cmd body)]] := by
    rw [hverdict, reaction, sums_concat]
  cases debug with
  | false =>
      obtain ⟨d', herror, hserving⟩ := logError_eq crc8 lib r.uninit
        (nested (LogBus.writePacket crc8 lib.toDuinoLog · r.uninit) depth)
        hclosed hroom LoggingBus.CRC_FORMAT
        [.hex8 sum, .hex8 (checksum crc8 cmd body)]
      have hdump := dumpCmd_quiet lib (nested (LogBus.writePacket crc8
        lib.toDuinoLog · r.uninit) (depth + 1)) hserving "CRC "
      rw [nested_succ] at hdump
      have hlogged : (d.closeDecoder { d.openDecoder with
          packet := q }).logDecoded crc8 lib (nested (LogBus.writePacket crc8
            lib.toDuinoLog · r.uninit) (depth + 1)) .crc =
          .ok (frames crc8 [complaint lib logCapacity LoggingBus.CRC_FORMAT
            [.hex8 sum, .hex8 (checksum crc8 cmd body)]], d') := by
        simp only [LoggingBus.logDecoded, hstored, hq.calcCrc crc8, hcrc,
          Stop.lift, bind, Except.bind, nested_succ, herror, hdump, pure,
          Except.pure, List.append_nil]
      exact alike_of_ok crc8 lib (hreaction.trans (if_neg Bool.false_ne_true))
        (serve_of_logged crc8 lib hdecode (by decide) hlogged)
        (by rw [hstep]; exact hserving)
  | true =>
      have herror := logError_deep crc8 lib r.uninit hclosed hroom (depth + 1)
        LoggingBus.CRC_FORMAT [.hex8 sum, .hex8 (checksum crc8 cmd body)]
      have hlogged : (d.closeDecoder { d.openDecoder with
          packet := q }).logDecoded crc8 lib (nested (LogBus.writePacket crc8
            lib.toDuinoLog · r.uninit) (depth + 1)) .crc = .error .deep := by
        simp only [LoggingBus.logDecoded, hstored, hq.calcCrc crc8, hcrc,
          Stop.lift, bind, Except.bind, herror]
      exact alike_of_error crc8 lib (hreaction.trans (if_pos rfl))
        (serve_of_deep crc8 lib hdecode hlogged)

/-- **One round of the device loop** does what the device should do. -/
theorem alike_serve (depth : Nat)
    (h : Serving capacity rspCapacity logCapacity log debug d ph)
    (hroom : 3 ≤ logCapacity) (r : Bus.Round Surroundings) :
    Alike (frames crc8)
      (Serving capacity rspCapacity logCapacity log debug)
      (d.serve crc8 lib (depth + 1) r)
      (react crc8 lib capacity rspCapacity logCapacity debug ph r) := by
  obtain ⟨err, decoder, hdecode, hreport, htracks, hholds⟩ :=
    PacketDecoder.shows_decodeByte crc8 h.tracks r.received
  have herr := eq_errorCode hreport
  have hdebug := (debug_of_decodeByte hdecode).trans h.decoder
  have hclosed := h.closeDecoder htracks hdebug
  cases hverdict : ((deviceReceiver crc8 capacity).step ph r.received).2 with
  | pending =>
      rw [hverdict] at herr
      subst herr
      exact alike_of_ok crc8 lib (by rw [hverdict]; rfl)
        (serve_of_logged crc8 lib hdecode (by decide) rfl) hclosed
  | short =>
      rw [hverdict] at herr
      subst herr
      exact alike_of_ok crc8 lib (by rw [hverdict]; rfl)
        (serve_of_logged crc8 lib hdecode (by decide) rfl) hclosed
  | overflow =>
      rw [hverdict] at herr
      subst herr
      cases debug with
      | false =>
          have hserve : d.serve crc8 lib (depth + 1) r =
              .ok (frames crc8 [], d.closeDecoder decoder) :=
            serve_of_logged crc8 lib hdecode (by decide)
              (dumpCmd_quiet lib (nested (LogBus.writePacket crc8
                lib.toDuinoLog · r.uninit) (depth + 1)) hclosed "2Big")
          exact alike_of_ok crc8 lib (by rw [hverdict]; rfl) hserve hclosed
      | true =>
          exact alike_of_error crc8 lib (by rw [hverdict]; rfl)
            (serve_of_deep crc8 lib hdecode
              (dumpCmd_deep crc8 lib r.uninit hclosed hroom _ "2Big"))
  | mismatch => exact alike_mismatch crc8 lib depth h hroom r hverdict
  | accepted cmd data sum =>
      rw [hverdict] at herr
      subst herr
      cases debug with
      | true =>
          exact alike_of_error crc8 lib (by rw [hverdict]; rfl)
            (serve_of_deep crc8 lib hdecode
              (dumpCmd_deep crc8 lib r.uninit hclosed hroom _ "Rcvd"))
      | false =>
          have hserve := serve_of_accepted crc8 lib hdecode
            (dumpCmd_quiet lib (nested (LogBus.writePacket crc8
              lib.toDuinoLog · r.uninit) (depth + 1)) hclosed "Rcvd")
          have hc : ((d.closeDecoder decoder).bus.store
              (d.closeDecoder decoder).cmdPacket).Holds capacity cmd data := by
            rw [show (d.closeDecoder decoder).bus.store
              (d.closeDecoder decoder).cmdPacket = decoder.packet from
                LogBus.store_setPacket_self _ _ _]
            exact hholds cmd data sum hverdict
          have hhandles := handles_packet crc8 lib r.uninit depth hclosed hroom
            hc r.env
          have hreaction : reaction crc8 lib rspCapacity logCapacity false
              r.env ph ((deviceReceiver crc8 capacity).step ph r.received).2 =
              answer lib rspCapacity logCapacity r.env cmd data := by
            rw [hverdict]
            rfl
          cases hanswer : answer lib rspCapacity logCapacity r.env cmd data with
          | ok packets =>
              rw [hanswer] at hhandles hreaction
              obtain ⟨handled, d', hhandle, hserving⟩ := hhandles
              rw [hhandle] at hserve
              exact alike_of_ok crc8 lib hreaction hserve hserving
          | error e =>
              rw [hanswer] at hhandles hreaction
              rw [show _ = Except.error e from hhandles] at hserve
              exact alike_of_error crc8 lib hreaction hserve

/-- A whole run does what the device should do. -/
theorem alike_serveAll (store : PacketPtr → Packet) {cmd rsp log : PacketPtr}
    (escapeChar : UInt8) (debug : Bool) (hcmd_rsp : cmd ≠ rsp)
    (hcmd_log : cmd ≠ log) (hrsp_log : rsp ≠ log)
    (hroom : 3 ≤ (store log).maxDataLen) (depth : Nat)
    (rounds : List (Bus.Round Surroundings)) :
    Alike (List.map (frames crc8))
      (Serving (store cmd).maxDataLen (store rsp).maxDataLen
        (store log).maxDataLen log debug)
      ((device store cmd rsp log escapeChar debug).serveAll crc8 lib (depth + 1)
        rounds)
      (feed (react crc8 lib (store cmd).maxDataLen (store rsp).maxDataLen
        (store log).maxDataLen debug) .idle rounds) :=
  Alike.feed (fun _ _ r hst => alike_serve crc8 lib depth hst hroom r)
    (serving_new store escapeChar debug hcmd_rsp hcmd_log hrsp_log) rounds

end Loop

/-- **The code does what the device should do.**  With three packets for
commands, responses and log messages, the last with room for an empty message,
on any received bytes, with debugging on or off, with calls nested to any depth
but 0: round by round, the
bytes that are written are the frames of the packets that should be sent, up to
a round in which an assertion fails or the calls of `writePacket` have no end,
where the run stops for that reason. -/
theorem reacts (crc8 : UInt8 → UInt8 → UInt8) (lib : DuinoErrorLog)
    (store : PacketPtr → Packet) {cmd rsp log : PacketPtr} (escapeChar : UInt8)
    (debug : Bool) (hcmd_rsp : cmd ≠ rsp) (hcmd_log : cmd ≠ log)
    (hrsp_log : rsp ≠ log) (hroom : 3 ≤ (store log).maxDataLen) (depth : Nat)
    (rounds : List (Bus.Round Surroundings)) :
    ((device store cmd rsp log escapeChar debug).serveAll crc8 lib (depth + 1)
        rounds).map Prod.fst =
      (feed (react crc8 lib (store cmd).maxDataLen (store rsp).maxDataLen
        (store log).maxDataLen debug) .idle rounds).map fun r =>
          r.1.map (frames crc8) :=
  (alike_serveAll crc8 lib store escapeChar debug hcmd_rsp hcmd_log hrsp_log
    hroom depth rounds).map_fst

/-- The packets of a device: 16 bytes for commands, 20 for responses, and 64
for log messages. -/
def packets (ptr : PacketPtr) : Packet :=
  .new (List.replicate (if ptr = 0 then 16 else if ptr = 1 then 20 else 64) 0)
    0

/-- A logging library that dumps no memory and formats everything to `?`. -/
def plainLog : DuinoErrorLog where
  infoLevel := 4
  errorLevel := 2
  vStrXPrintf _ _ := [0x3F]
  dumpMem _ _ _ := []

/-- The rounds in which some bytes are received. -/
def roundsOf (bytes : List UInt8) : List (Bus.Round Surroundings) :=
  bytes.map fun byte => ⟨byte, ⟨0, 0, 0, 0, 0, 0, 0, 0, 0⟩, 0⟩

/-- A `PING`, a frame whose CRC is wrong, and a command that is not known. -/
theorem reacts_complaints :
    ((device packets 0 1 2 0 false).serveAll crc8Poly07 plainLog (0 + 1)
        (roundsOf (frames crc8Poly07 [(PING, [7])] ++ [END, PING, 0, END] ++
          frames crc8Poly07 [(0x10, [])]))).map Prod.fst =
      (feed (react crc8Poly07 plainLog 16 20 64 false) .idle
        (roundsOf (frames crc8Poly07 [(PING, [7])] ++ [END, PING, 0, END] ++
          frames crc8Poly07 [(0x10, [])]))).map fun r =>
            r.1.map (frames crc8Poly07) :=
  reacts crc8Poly07 plainLog packets 0 false (by decide) (by decide)
    (by decide) (by decide) 0 _

end DuinoBus.LoggingDevice
