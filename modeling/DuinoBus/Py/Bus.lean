import DuinoBus.Py.PacketDecoder
import DuinoBus.Py.PacketEncoder
import DuinoBus.Py.Unpacker

/-!
# The host's bus

`IBus` owns one `Packet`, which its decoder fills again and again, and a queue
of received packets.  What is put in the queue is a reference: packets live
in a store here, and the decoder, the queue and the callers refer to them.

The receive thread polls; a poll that finds a byte is one call of `receive`.
An exception in it ends the thread.  A caller of `send_command_get_response`
writes its command (`sendCommand`) and then waits for the queue
(`getResponse`).

Dumps and error messages are in `DuinoBus.Py.Debugging`.
-/

namespace DuinoBus.Py

open DuinoBus.Wire
open DuinoBus.Verified

/-- A reference to a packet object. -/
abbrev Ref := Nat

structure Bus where
  store : Ref → Packet
  decoder : PacketDecoder Ref
  encoder : PacketEncoder
  recvQueue : List Ref

/-- What processing a packet did with it. -/
inductive Processed where
  | queued
  | logged (level : Nat) (msg : String)
  deriving DecidableEq, Repr

namespace Bus

/-- Log message. -/
def LOG : UInt8 := 0x03

/-- The levels of the `logging` module for the levels of a device. -/
def PYTHON_LOG_LEVEL : List Nat := [0, 50, 40, 30, 20, 10]

/-- `logging.ERROR`. -/
def ERROR_LEVEL : Nat := 40

/-- `IBus()`: its packet is the object at `0`. -/
def new : Bus :=
  ⟨fun _ => Packet.new 0 [], .new 0, PacketEncoder.new, []⟩

/-- The packet of the decoder. -/
def packet (bus : Bus) : Packet := bus.store bus.decoder.packet

/-- The decoder with its packet at hand. -/
def openDecoder (bus : Bus) : PacketDecoder Packet :=
  ⟨bus.packet, bus.decoder.state, bus.decoder.escape⟩

/-- What the decoder did to itself and its packet. -/
def closeDecoder (bus : Bus) (d : PacketDecoder Packet) : Bus :=
  { bus with
    store := fun ref =>
      if ref = bus.decoder.packet then d.packet else bus.store ref
    decoder := ⟨bus.decoder.packet, d.state, d.escape⟩ }

section Code

variable (crc8 : UInt8 → UInt8 → UInt8)

/-- `None` is read when no byte is available. -/
def processByte (bus : Bus) (input : Option UInt8) :
    Except Fault (ErrorCode × Bus) :=
  match input with
  | none => .ok (.notDone, bus)
  | some byte => do
      let (err, d) ← bus.openDecoder.decodeByte crc8 byte
      return (err, bus.closeDecoder d)

/-- The level and text of a log message. -/
def unpackLog (pkt : Packet) : Except Fault Processed := do
  let (level, unpacker) ← (Unpacker.new pkt.data).unpackU8
  let (msg, _) ← unpacker.unpackStr
  return .logged (PYTHON_LOG_LEVEL.getD level.toNat ERROR_LEVEL) msg

def processPacket (bus : Bus) (pkt : Ref) : Except Fault (Processed × Bus) :=
  if (bus.store pkt).cmd = LOG then do
    let processed ← unpackLog (bus.store pkt)
    return (processed, bus)
  else .ok (.queued, { bus with recvQueue := bus.recvQueue ++ [pkt] })

/-- `self.process_packet(self.decoder.packet)`.  When it raises, the bus is as
the decoder left it. -/
def processDecoded (bus : Bus) : Except Fault (Option Processed) × Bus :=
  match bus.processPacket bus.decoder.packet with
  | .error f => (.error f, bus)
  | .ok (processed, bus) => (.ok (some processed), bus)

/-- One poll of the receive thread that finds data: what was done with a
packet, if one was processed, or the exception that ends the thread. -/
def receive (bus : Bus) (input : Option UInt8) :
    Except Fault (Option Processed) × Bus :=
  match bus.processByte crc8 input with
  | .error f => (.error f, bus)
  | .ok (err, bus) =>
      if err = .notDone then (.ok none, bus) else bus.processDecoded

/-! ### Sending -/

/-- One call of `encode_byte` and `write_byte`.  `accepts` says of the bytes
to come whether they are accepted, and they are when it is used up. -/
def writeByte (s : PacketEncoder × List Bool) :
    Except Fault (ErrorCode × Option UInt8 × (PacketEncoder × List Bool)) := do
  let (err, byte, encoder) ← s.1.encodeByte crc8
  if s.2.headD true then return (err, some byte, (encoder, s.2.tail))
  else return (.os, none, (encoder, s.2.tail))

/-- The loop of `write_packet`. -/
def writer :
    Generator (PacketEncoder × List Bool) (Option UInt8) ErrorCode Fault where
  call := writeByte crc8
  more err := err = .notDone
  left s := s.1.callsLeft
  left_lt := by
    intro s err o s' h hmore
    have herr : err = .notDone := of_decide_eq_true hmore
    unfold writeByte at h
    cases hcall : s.1.encodeByte crc8 with
    | error f => simp [hcall, bind, Except.bind] at h
    | ok r =>
        simp only [hcall, bind, Except.bind, pure, Except.pure] at h
        split at h
        · cases h
          exact PacketEncoder.callsLeft_lt crc8 hcall herr
        · cases h
          cases herr

/-- The result, and the bytes that were written. -/
def writePacket (bus : Bus) (pkt : Packet) (accepts : List Bool) :
    Except Fault (ErrorCode × List UInt8 × Bus) := do
  let (err, bytes, s) ← (writer crc8).drain
    (bus.encoder.encodeStart crc8 pkt, accepts)
  return (err, bytes.filterMap id, { bus with encoder := s.1 })

/-- The first half of `send_command_get_response`, on an open bus: write the
command. -/
def sendCommand (bus : Bus) (cmdPkt : Packet) (accepts : List Bool) :
    Except Fault (ErrorCode × List UInt8 × Bus) :=
  bus.writePacket crc8 cmdPkt accepts

/-- The second half: wait for the queue, which is empty when the time is
up. -/
def getResponse (bus : Bus) : (ErrorCode × Option Ref) × Bus :=
  match bus.recvQueue with
  | [] => ((.timeout, none), bus)
  | pkt :: rest => ((.none, some pkt), { bus with recvQueue := rest })

end Code

/-! ## What the operations do -/

@[simp] theorem openDecoder_closeDecoder (bus : Bus)
    (d : PacketDecoder Packet) : (bus.closeDecoder d).openDecoder = d := by
  simp [openDecoder, closeDecoder, packet]

@[simp] theorem packet_closeDecoder (bus : Bus) (d : PacketDecoder Packet) :
    (bus.closeDecoder d).packet = d.packet := by
  simp [closeDecoder, packet]

/-- The decoder of the bus is in a phase of the receiver. -/
def Tracks (bus : Bus) (ph : Phase UInt8) : Prop := bus.openDecoder.Tracks ph

theorem tracks_new : new.Tracks .idle := ⟨rfl, rfl⟩

/-- What no received byte changes: whose packet the decoder fills, and the
encoder. -/
def SameOwner (bus bus' : Bus) : Prop :=
  bus'.decoder.packet = bus.decoder.packet ∧ bus'.encoder = bus.encoder

section Steps

variable (crc8 : UInt8 → UInt8 → UInt8) {bus : Bus} {ph : Phase UInt8}

/-- Processing a byte shows what the decoder shows. -/
theorem processByte_eq (h : bus.Tracks ph) (byte : UInt8) :
    ∃ err d, bus.openDecoder.decodeByte crc8 byte = .ok (err, d) ∧
      bus.processByte crc8 (some byte) = .ok (err, bus.closeDecoder d) ∧
      d.report err = Wire.report ((hostReceiver crc8
        Packet.MAX_DATA_LEN).machine.out ph byte) ∧
      d.Tracks ((hostReceiver crc8 Packet.MAX_DATA_LEN).machine.next ph
        byte) := by
  obtain ⟨err, d, hok, hreport, htracks⟩ :=
    PacketDecoder.shows_decodeByte crc8 h byte
  refine ⟨err, d, hok, ?_, hreport, htracks⟩
  rw [processByte, hok]
  rfl

/-- A byte changes nothing but the decoder and its packet. -/
theorem eq_closeDecoder_of_processByte {crc8 : UInt8 → UInt8 → UInt8}
    {bus bus' : Bus} {byte : UInt8} {err : ErrorCode}
    (h : bus.processByte crc8 (some byte) = .ok (err, bus')) :
    ∃ d, bus' = bus.closeDecoder d := by
  rw [processByte] at h
  cases hdecode : bus.openDecoder.decodeByte crc8 byte with
  | error f =>
      rw [hdecode] at h
      cases h
  | ok result =>
      rw [hdecode] at h
      cases h
      exact ⟨result.2, rfl⟩

/-- **A byte that completes nothing** is only decoded.  Between frames, and
unless it is a command, it leaves the packet alone. -/
theorem receive_pending (h : bus.Tracks ph) {byte : UInt8}
    (hout : (hostReceiver crc8 Packet.MAX_DATA_LEN).machine.out ph byte =
      .pending) :
    ∃ bus', bus.receive crc8 (some byte) = (.ok none, bus') ∧
      bus'.Tracks ((hostReceiver crc8 Packet.MAX_DATA_LEN).machine.next ph
        byte) ∧
      bus'.recvQueue = bus.recvQueue ∧ bus.SameOwner bus' ∧
      (ph.Between → ¬ bus.decoder.StartsPacket byte →
        bus'.packet = bus.packet ∧
          ((hostReceiver crc8 Packet.MAX_DATA_LEN).machine.next ph
            byte).Between) := by
  obtain ⟨err, d, hdecode, hprocess, hreport, htracks⟩ :=
    processByte_eq crc8 h byte
  rw [hout] at hreport
  have herr : err = .notDone := by
    by_cases hnone : err = .none
    · subst hnone
      simp [PacketDecoder.report, observe, Wire.report] at hreport
    · simpa [PacketDecoder.report, observe, Wire.report, hnone] using hreport
  refine ⟨bus.closeDecoder d, ?_, ?_, rfl, ⟨rfl, rfl⟩, ?_⟩
  · simp only [receive, hprocess, if_pos herr]
  · rw [Tracks, openDecoder_closeDecoder]
    exact htracks
  · intro hph hnot
    rw [packet_closeDecoder]
    exact PacketDecoder.packet_eq_of_not_startsPacket crc8 h hph hnot hdecode

/-- **A byte that completes a packet**: the bus then processes the packet it
holds. -/
theorem receive_accepted (h : bus.Tracks ph) {byte cmd sum : UInt8}
    {data : List UInt8}
    (hout : (hostReceiver crc8 Packet.MAX_DATA_LEN).machine.out ph byte =
      .accepted cmd data sum) :
    ∃ bus', bus'.Tracks ((hostReceiver crc8
        Packet.MAX_DATA_LEN).machine.next ph byte) ∧
      bus'.packet.cmd = cmd ∧ bus'.packet.data = data ∧
      bus'.recvQueue = bus.recvQueue ∧ bus.SameOwner bus' ∧
      bus.receive crc8 (some byte) = bus'.processDecoded := by
  obtain ⟨err, d, hdecode, hprocess, hreport, htracks⟩ :=
    processByte_eq crc8 h byte
  rw [hout] at hreport
  have herr : err = .none := by
    by_contra hne
    simp [PacketDecoder.report, observe, Wire.report, hne] at hreport
  subst herr
  simp only [PacketDecoder.report, observe, if_true, Wire.report,
    Report.packet.injEq] at hreport
  refine ⟨bus.closeDecoder d, ?_, ?_, ?_, rfl, ⟨rfl, rfl⟩, ?_⟩
  · rw [Tracks, openDecoder_closeDecoder]
    exact htracks
  · rw [packet_closeDecoder]
    exact hreport.1
  · rw [packet_closeDecoder]
    exact hreport.2.1
  · simp only [receive, hprocess]
    rw [if_neg (by decide)]

/-- Processing a packet leaves the decoder and its packet alone. -/
theorem openDecoder_of_processPacket {bus' : Bus} {pkt : Ref}
    {processed : Processed} (h : bus.processPacket pkt = .ok (processed, bus')) :
    bus'.openDecoder = bus.openDecoder := by
  unfold processPacket at h
  split at h
  · cases hlog : unpackLog (bus.store pkt) with
    | error f => simp [hlog, bind, Except.bind] at h
    | ok processed' =>
        simp only [hlog, bind, Except.bind, pure, Except.pure] at h
        cases h
        rfl
  · cases h
    rfl

/-- A packet that is no log message is queued. -/
theorem processDecoded_queued (h : bus.packet.cmd ≠ LOG) :
    bus.processDecoded = (.ok (some .queued),
      { bus with recvQueue := bus.recvQueue ++ [bus.decoder.packet] }) := by
  have hprocess : bus.processPacket bus.decoder.packet = .ok (.queued,
      { bus with recvQueue := bus.recvQueue ++ [bus.decoder.packet] }) :=
    if_neg h
  rw [processDecoded, hprocess]

/-- Processing changes nothing but the queue, and adds to it no more than the
packet. -/
theorem processDecoded_queue (bus : Bus) :
    ∃ result queue, bus.processDecoded =
        (result, { bus with recvQueue := queue }) ∧
      (queue = bus.recvQueue ∨
        queue = bus.recvQueue ++ [bus.decoder.packet]) := by
  by_cases h : bus.packet.cmd = LOG
  · have hprocess : bus.processPacket bus.decoder.packet = (do
        let processed ← unpackLog bus.packet
        return (processed, bus)) := if_pos h
    rw [processDecoded, hprocess]
    cases unpackLog bus.packet with
    | error f => exact ⟨.error f, bus.recvQueue, rfl, .inl rfl⟩
    | ok processed => exact ⟨.ok (some processed), _, rfl, .inl rfl⟩
  · exact ⟨_, _, processDecoded_queued h, .inr rfl⟩

end Steps

/-! ### Sending -/

/-- On a line that accepts every byte, the writer owes what the encoder
does. -/
private theorem writer_pays (crc8 : UInt8 → UInt8 → UInt8) (cmd : UInt8)
    (data : List UInt8) :
    (writer crc8).Pays .none (fun s out => s.2 = [] ∧
      ∃ bytes, PacketEncoder.Owes crc8 cmd data s.1 bytes ∧
        out = bytes.map some) where
  done_last := rfl
  step := by
    rintro ⟨e, accepts⟩ out ⟨rfl, bytes, howes, rfl⟩
    have hcall : ∀ err o e', e.encodeByte crc8 = .ok (err, o, e') →
        (writer crc8).call (e, []) = .ok (err, some o, (e', [])) := by
      intro err o e' h
      show writeByte crc8 (e, []) = _
      rw [writeByte, h]
      rfl
    rcases PacketEncoder.encodeByte_owes crc8 howes with
      ⟨o, e', rfl, h⟩ | ⟨o, os, e', rfl, h, howes'⟩
    · exact .inl ⟨some o, (e', []), rfl, hcall _ _ _ h⟩
    · exact .inr ⟨some o, os.map some, .notDone, (e', []), rfl,
        hcall _ _ _ h, rfl, rfl, os, howes', rfl⟩

/-- **A command is written as its frame** on a line that accepts every
byte. -/
theorem sendCommand_eq (crc8 : UInt8 → UInt8 → UInt8) (bus : Bus)
    (pkt : Packet) :
    ∃ encoder, bus.sendCommand crc8 pkt [] =
      .ok (.none, frame crc8 pkt.cmd pkt.data, { bus with encoder }) := by
  have howes := PacketEncoder.owes_encodeStart crc8 bus.encoder pkt
  obtain ⟨s, hs⟩ := (writer_pays crc8 pkt.cmd pkt.data).drain_eq
    (s := (bus.encoder.encodeStart crc8 pkt, [])) ⟨rfl, _, howes, rfl⟩
  refine ⟨s.1, ?_⟩
  rw [sendCommand, writePacket, hs]
  simp only [bind, Except.bind, pure, Except.pure, List.filterMap_map,
    Function.id_comp, List.filterMap_some]

/-- One call of the loop of `write_packet`. -/
private theorem call_writer {crc8 : UInt8 → UInt8 → UInt8}
    {e e' : PacketEncoder} {err : ErrorCode} {o : UInt8}
    (h : e.encodeByte crc8 = .ok (err, o, e')) (accepts : List Bool) :
    (writer crc8).call (e, accepts) =
      if accepts.headD true then .ok (err, some o, (e', accepts.tail))
      else .ok (.os, none, (e', accepts.tail)) := by
  show writeByte crc8 (e, accepts) = _
  rw [writeByte, h]
  rfl

/-- The loop on any line. -/
private theorem drain_writer (crc8 : UInt8 → UInt8 → UInt8) {cmd : UInt8}
    {data : List UInt8} {e : PacketEncoder} {bytes : List UInt8}
    (howes : PacketEncoder.Owes crc8 cmd data e bytes) (accepts : List Bool) :
    ∃ written s, (writer crc8).drain (e, accepts) =
      .ok (if false ∈ accepts.take bytes.length then .os else .none,
        written, s) := by
  induction bytes generalizing e accepts with
  | nil =>
      rcases PacketEncoder.encodeByte_owes crc8 howes with
        ⟨o, e', hnil, _⟩ | ⟨o, os, e', hnil, _⟩
      · cases hnil
      · cases hnil
  | cons b bytes ih =>
      have hrefused : false ∈ accepts.take (b :: bytes).length ↔
          accepts.headD true = false ∨
            false ∈ accepts.tail.take bytes.length := by
        cases accepts with
        | nil => simp
        | cons a accepts => cases a <;> simp
      simp only [hrefused]
      cases hhead : accepts.headD true with
      | false =>
          -- whatever the encoder answers, the byte is refused
          obtain ⟨err, o, e', h⟩ : ∃ err o e', e.encodeByte crc8 =
              .ok (err, o, e') := by
            rcases PacketEncoder.encodeByte_owes crc8 howes with
              ⟨o, e', _, h⟩ | ⟨o, os, e', _, h, _⟩
            · exact ⟨_, o, e', h⟩
            · exact ⟨_, o, e', h⟩
          have hcall := call_writer h accepts
          rw [hhead, if_neg Bool.false_ne_true] at hcall
          rw [if_pos (.inl rfl)]
          exact ⟨_, _, (writer crc8).drain_last hcall rfl⟩
      | true =>
          simp only [Bool.true_eq_false, false_or]
          rcases PacketEncoder.encodeByte_owes crc8 howes with
            ⟨o, e', hlast, h⟩ | ⟨o, os, e', hmore, h, howes'⟩
          · have hcall := call_writer h accepts
            rw [hhead, if_pos rfl] at hcall
            cases hlast
            rw [if_neg (by simp)]
            exact ⟨_, _, (writer crc8).drain_last hcall rfl⟩
          · have hcall := call_writer h accepts
            rw [hhead, if_pos rfl] at hcall
            cases hmore
            obtain ⟨written, s, hrest⟩ := ih howes' accepts.tail
            exact ⟨_, s, (writer crc8).drain_more hcall rfl hrest⟩

/-- **A write on any line** is done exactly if every byte of the frame is
accepted. -/
theorem writePacket_any (crc8 : UInt8 → UInt8 → UInt8) (bus : Bus)
    (pkt : Packet) (accepts : List Bool) :
    ∃ bytes encoder, bus.writePacket crc8 pkt accepts =
      .ok (if false ∈ accepts.take (frame crc8 pkt.cmd pkt.data).length
        then .os else .none, bytes, { bus with encoder }) := by
  obtain ⟨written, s, hdrain⟩ := drain_writer crc8
    (PacketEncoder.owes_encodeStart crc8 bus.encoder pkt) accepts
  refine ⟨written.filterMap id, s.1, ?_⟩
  rw [writePacket, hdrain]
  rfl

/-- The loop of `write_packet` on a line that refuses a byte: it ends there,
with the bytes before it written. -/
private theorem drain_refused (crc8 : UInt8 → UInt8 → UInt8) {cmd : UInt8}
    {data : List UInt8} {e : PacketEncoder} {bytes : List UInt8}
    (howes : PacketEncoder.Owes crc8 cmd data e bytes) {k : Nat}
    (hk : k < bytes.length) :
    ∃ s, (writer crc8).drain (e, List.replicate k true ++ [false]) =
      .ok (.os, (bytes.take k).map some ++ [none], s) := by
  induction k generalizing e bytes with
  | zero =>
      -- whatever the encoder answers, the byte is refused
      have hcall : ∃ err o e', e.encodeByte crc8 = .ok (err, o, e') := by
        rcases PacketEncoder.encodeByte_owes crc8 howes with
          ⟨o, e', _, h⟩ | ⟨o, os, e', _, h, _⟩
        · exact ⟨_, o, e', h⟩
        · exact ⟨_, o, e', h⟩
      obtain ⟨err, o, e', h⟩ := hcall
      refine ⟨(e', []), (writer crc8).drain_last ?_ rfl⟩
      show writeByte crc8 (e, [false]) = _
      rw [writeByte, h]
      rfl
  | succ k ih =>
      rcases PacketEncoder.encodeByte_owes crc8 howes with
        ⟨o, e', rfl, _⟩ | ⟨o, os, e', rfl, h, howes'⟩
      · rw [List.length_singleton] at hk
        omega
      · have hcall : (writer crc8).call
            (e, List.replicate (k + 1) true ++ [false]) =
            .ok (.notDone, some o, (e', List.replicate k true ++ [false])) := by
          show writeByte crc8 _ = _
          rw [writeByte, h]
          rfl
        obtain ⟨s, hrest⟩ := ih howes' (Nat.lt_of_succ_lt_succ hk)
        exact ⟨s, (writer crc8).drain_more hcall rfl hrest⟩

/-- **A write that is refused** ends with `OS`, with the bytes before the
refused one written. -/
theorem writePacket_refused (crc8 : UInt8 → UInt8 → UInt8) (bus : Bus)
    (pkt : Packet) {k : Nat} (hk : k < (frame crc8 pkt.cmd pkt.data).length) :
    ∃ encoder, bus.writePacket crc8 pkt (List.replicate k true ++ [false]) =
      .ok (.os, (frame crc8 pkt.cmd pkt.data).take k,
        { bus with encoder }) := by
  obtain ⟨s, hs⟩ := drain_refused crc8
    (PacketEncoder.owes_encodeStart crc8 bus.encoder pkt) hk
  refine ⟨s.1, ?_⟩
  have hwritten : (((frame crc8 pkt.cmd pkt.data).take k).map some ++
      [none]).filterMap id = (frame crc8 pkt.cmd pkt.data).take k := by
    rw [List.filterMap_append, List.filterMap_map, Function.id_comp,
      List.filterMap_some]
    exact List.append_nil _
  rw [writePacket, hs]
  simp only [bind, Except.bind, pure, Except.pure, hwritten]

end Bus

end DuinoBus.Py
