import DuinoBus.HostDemux
import DuinoBus.HostSurvival
import DuinoBus.LogMessages

/-!
# Log messages from the device to the host

`do_log` on the device and `process_packet` on the host have to agree on what
a log message is: a level, the length of the text with its null, and the text.
They do, up to three things.  The device cuts the text to what its log packet
has room for, anywhere; an empty text reaches the host as its null; and a text
that is no UTF-8 once it is cut ends the receive thread.

`logs_delivered` says this of any number of messages, one after the other.
-/

namespace DuinoBus.LogDelivery

open DuinoBus.Wire
open DuinoBus.Verified
open DuinoBus.HostDemux
open DuinoBus.HostThread
open DuinoBus.Cpp (LogBus DuinoLog PacketPtr PacketEncoder)
open DuinoBus.Cpp.LogBus
open DuinoBus.LogMessages (message)

/-! ## On the device -/

/-- The data of a log packet, with its length byte. -/
def logData (capacity : Nat) (level : UInt8) (text : List UInt8) :
    List UInt8 :=
  message capacity level
    (UInt8.ofNat ((logged capacity text).length + 1)) text

/-- A bus that dumps nothing, with a log packet. -/
structure Logs (bus : LogBus) (log : PacketPtr) (capacity : Nat) : Prop where
  quiet : bus.encoder.debug = false
  logPacket : bus.logPacket = some log
  room : (bus.store log).maxDataLen = capacity

/-- A bus on which one packet may have been filled and written: debugging, the
log packet, the room in that packet and all other packets are as before. -/
structure Keeps (bus bus' : LogBus) (ptr : PacketPtr) : Prop where
  debug : bus'.encoder.debug = bus.encoder.debug
  logPacket : bus'.logPacket = bus.logPacket
  room : (bus'.store ptr).maxDataLen = (bus.store ptr).maxDataLen
  others : ∀ p, p ≠ ptr → bus'.store p = bus.store p

theorem Keeps.setPacket {bus : LogBus} {ptr : PacketPtr} {q : Cpp.Packet}
    (h : q.maxDataLen = (bus.store ptr).maxDataLen) :
    Keeps bus (bus.setPacket ptr q) ptr where
  debug := rfl
  logPacket := rfl
  room := by rw [store_setPacket_self, h]
  others _ hp := if_neg hp

theorem Keeps.trans {bus bus' bus'' : LogBus} {ptr : PacketPtr}
    (h : Keeps bus bus' ptr) (h' : Keeps bus' bus'' ptr) :
    Keeps bus bus'' ptr where
  debug := h'.debug.trans h.debug
  logPacket := h'.logPacket.trans h.logPacket
  room := h'.room.trans h.room
  others p hp := (h'.others p hp).trans (h.others p hp)

theorem Logs.of_keeps {bus bus' : LogBus} {log : PacketPtr} {capacity : Nat}
    (h : Logs bus log capacity) (hkeeps : Keeps bus bus' log) :
    Logs bus' log capacity where
  quiet := hkeeps.debug.trans h.quiet
  logPacket := hkeeps.logPacket.trans h.logPacket
  room := hkeeps.room.trans h.room

section Device

variable (crc8 : UInt8 → UInt8 → UInt8) (lib : DuinoLog)
  (call : LogBus × PacketPtr →
    Except (Stop Fault) (ErrorCode × List UInt8 × LogBus))
  {bus : LogBus} {log ptr : PacketPtr} (byte : UInt8)

/-- Writing a packet changes nothing else. -/
theorem keeps_of_writePacket {capacity : Nat} {cmd : UInt8}
    {data : List UInt8} (hp : (bus.store ptr).Holds capacity cmd data)
    (hquiet : bus.encoder.debug = false)
    {r : ErrorCode × List UInt8 × LogBus}
    (hwrite : writePacket crc8 lib call byte (bus, ptr) = .ok r) :
    Keeps bus r.2.2 ptr := by
  obtain ⟨q, hq, hstart⟩ := encodeStart_quiet crc8 lib hp (.inl hquiet)
  obtain ⟨started, hstarted, hrest⟩ := bind_ok hwrite
  rw [hstart call] at hstarted
  cases hstarted
  obtain ⟨drained, hdrained, hreturn⟩ := bind_ok hrest
  cases hreturn
  have hdrain : (PacketEncoder.generator crc8).drain
      (openEncoder { bus.setPacket ptr q with
        packet := some ptr
        encoder := { bus.encoder with state := .idle } }, byte) =
      .ok drained := by
    unfold Stop.lift at hdrained
    split at hdrained
    · next hok => exact hok.trans (congrArg Except.ok (Except.ok.inj hdrained))
    · cases hdrained
  have hdebug := Generator.drain_invariant
    (fun s : PacketEncoder × UInt8 => s.1.debug = bus.encoder.debug)
    (fun s err o s' hs hcall => by
      rw [PacketEncoder.debug_of_encodeByte crc8
        (PacketEncoder.encodeByte_of_call crc8 hcall)]
      exact hs)
    hdrain rfl
  have hfilled : Keeps bus (bus.setPacket ptr q) ptr :=
    .setPacket (hq.maxDataLen.trans hp.maxDataLen.symm)
  exact ⟨hdebug, rfl, hfilled.room, hfilled.others⟩

/-- A message goes out as the frame of its log packet. -/
theorem doLog_eq {capacity : Nat} (h : Logs bus log capacity)
    (hroom : 3 ≤ capacity) (level : UInt8) (text : List UInt8) :
    ∃ bus', doLog (writePacket crc8 lib call byte) bus level text =
        .ok (frame crc8 LogBus.LOG (logData capacity level text), bus') ∧
      Keeps bus bus' log := by
  obtain ⟨q, hfill, hq⟩ := fillLog_eq (bus.store log) level text
    (by rw [h.room]; exact hroom)
  have hfilled : Keeps bus (bus.setPacket log q) log := .setPacket hq.maxDataLen
  rw [h.room] at hq
  have hstored : ((bus.setPacket log q).store log).Holds capacity LogBus.LOG
      (logData capacity level text) := by
    rw [store_setPacket_self]
    exact hq
  obtain ⟨bus', hwrite⟩ :=
    writePacket_quiet crc8 lib hstored (.inl h.quiet) byte
  refine ⟨bus', ?_, hfilled.trans
    (keeps_of_writePacket crc8 lib call byte hstored h.quiet (hwrite call))⟩
  rw [doLog, h.logPacket]
  simp only [hfill, Stop.lift, hwrite call, bind, Except.bind, pure,
    Except.pure]

/-- Messages go out one after the other. -/
theorem doLogs_eq {capacity : Nat} (h : Logs bus log capacity)
    (hroom : 3 ≤ capacity) (messages : List (UInt8 × List UInt8)) :
    ∃ bus', doLogs (writePacket crc8 lib call byte) bus messages =
        .ok (messages.flatMap fun m =>
          frame crc8 LogBus.LOG (logData capacity m.1 m.2), bus') ∧
      Logs bus' log capacity := by
  induction messages generalizing bus with
  | nil => exact ⟨bus, rfl, h⟩
  | cons m messages ih =>
      obtain ⟨bus₁, hfirst, h₁⟩ := doLog_eq crc8 lib call byte h hroom m.1 m.2
      obtain ⟨bus₂, hrest, h₂⟩ := ih (h.of_keeps h₁)
      refine ⟨bus₂, ?_, h₂⟩
      simp only [doLogs, hfirst, hrest, bind, Except.bind, pure, Except.pure,
        List.flatMap_cons]

end Device

/-! ## On the host -/

/-- The bytes that the host makes a text of: an empty text is its null. -/
def shown (text : List UInt8) : List UInt8 :=
  if text = [] then [0] else text

/-- What becomes of messages that a device logs, with a log packet of some
capacity: each is logged, up to the first whose text is no UTF-8 where it was
cut. -/
def delivered (capacity : Nat) :
    List (UInt8 × List UInt8) → List (Except Fault Py.Processed)
  | [] => []
  | (level, text) :: messages =>
      match String.fromUTF8? ⟨(shown (logged capacity text)).toArray⟩ with
      | none => [.error .unicodeDecodeError]
      | some msg => .ok (.logged (loggingLevel level) msg) ::
          delivered capacity messages

/-- What the host drops of a text is the null that the device added, if it
added that to anything. -/
private theorem logText_concat (text : List UInt8) :
    HostSurvival.logText (text ++ [0]) = shown text := by
  rw [HostSurvival.logText, shown, List.length_append, List.length_singleton]
  by_cases h : text = []
  · rw [h]
    rfl
  · rw [if_neg h, List.dropLast_concat, if_pos]
    have hpos := List.length_pos_of_ne_nil h
    omega

/-- A log message is unpacked to the level and the text that were packed. -/
theorem outcome_logData {capacity : Nat} {text : List UInt8}
    (hlen : (logged capacity text).length ≤ 254) (level : UInt8) :
    outcome (Py.Bus.LOG, logData capacity level text) =
      match String.fromUTF8? ⟨(shown (logged capacity text)).toArray⟩ with
      | none => .error .unicodeDecodeError
      | some msg => .ok (.logged (loggingLevel level) msg) := by
  have hcount : (UInt8.ofNat ((logged capacity text).length + 1)).toNat =
      (logged capacity text ++ [0]).length := by
    rw [List.length_append, List.length_singleton]
    apply UInt8.toNat_ofNat_of_lt'
    show _ + 1 < 256
    omega
  rw [outcome, if_pos rfl, show logData capacity level text = level ::
    UInt8.ofNat ((logged capacity text).length + 1) ::
      (logged capacity text ++ [0]) from rfl, logOutcome, hcount,
    List.take_length, logText_concat]
  cases String.fromUTF8? ⟨(shown (logged capacity text)).toArray⟩ with
  | none => rfl
  | some msg => rfl

theorem outcomes_logData {capacity : Nat}
    {messages : List (UInt8 × List UInt8)}
    (hlen : ∀ m ∈ messages, (logged capacity m.2).length ≤ 254) :
    (outcomes (messages.map fun m =>
        (Py.Bus.LOG, logData capacity m.1 m.2))).map Prod.snd =
      delivered capacity messages := by
  induction messages with
  | nil => rfl
  | cons m messages ih =>
      have hrest := ih fun n hn => hlen n (List.mem_cons_of_mem m hn)
      have hfirst := outcome_logData (hlen m List.mem_cons_self) m.1
      rw [List.map_cons, outcomes, delivered, hfirst, ← hrest]
      cases String.fromUTF8? ⟨(shown (logged capacity m.2)).toArray⟩ with
      | none => rfl
      | some msg => rfl

/-- No log message is put in the queue. -/
theorem queued_logs {fs : List (UInt8 × List UInt8)}
    (h : ∀ f ∈ fs, f.1 = Py.Bus.LOG) : queued (outcomes fs) = [] := by
  induction fs with
  | nil => rfl
  | cons f fs ih =>
      have hfirst := queued_of_log (h f List.mem_cons_self)
      have hrest := ih fun g hg => h g (List.mem_cons_of_mem f hg)
      rw [outcomes]
      cases houtcome : outcome f with
      | error e => rfl
      | ok processed =>
          rw [houtcome] at hfirst
          rw [queued_cons, hfirst, hrest]
          rfl

/-! ## From end to end -/

/-- The text, where the log packet cuts it, fits into the packet of the
host. -/
def Fits (capacity : Nat) (text : List UInt8) : Prop :=
  min text.length (capacity - 3) ≤ Py.Packet.MAX_DATA_LEN - 4

instance (capacity : Nat) : DecidablePred (Fits capacity) := fun text =>
  inferInstanceAs (Decidable (min text.length (capacity - 3) ≤ _))

/-- **Log messages reach the host.**  What a device logs over its bus, which
dumps nothing and has a log packet of at least three bytes, any number of
messages of any levels and texts that fit, the receive thread of the host logs
one by one, with the levels of the `logging` module and the texts as far as the
log packet had room for them, up to the first text that is no UTF-8 there, which
ends the thread.  An empty text is logged as a null.  Nothing is put in the
queue. -/
theorem logs_delivered (crc8 : UInt8 → UInt8 → UInt8) (lib : DuinoLog)
    (call : LogBus × PacketPtr →
      Except (Stop Fault) (ErrorCode × List UInt8 × LogBus))
    (byte : UInt8) {bus : LogBus} {log : PacketPtr} {capacity : Nat}
    (h : Logs bus log capacity) (hroom : 3 ≤ capacity)
    (messages : List (UInt8 × List UInt8))
    (hfits : ∀ m ∈ messages, Fits capacity m.2) :
    ∃ bytes bus', doLogs (writePacket crc8 lib call byte) bus messages =
        .ok (bytes, bus') ∧
      ∀ inputs : List (Option UInt8), inputs.filterMap id = bytes →
        (incomingDataThread crc8 .new inputs).filterMap Poll.processed =
          delivered capacity messages ∧
        (runThread crc8 .new inputs).2.recvQueue = [] := by
  obtain ⟨bus', hdoLogs, _⟩ := doLogs_eq crc8 lib call byte h hroom messages
  refine ⟨_, bus', hdoLogs, fun inputs hinputs => ?_⟩
  have hlen : ∀ m ∈ messages, (logged capacity m.2).length ≤ 252 := by
    intro m hm
    rw [logged, List.length_take, Nat.min_comm]
    exact hfits m hm
  let fs := messages.map fun m => (Py.Bus.LOG, logData capacity m.1 m.2)
  have hframes : inputs.filterMap id =
      fs.flatMap fun f => frame crc8 f.1 f.2 := by
    rw [hinputs, List.flatMap_map]
    rfl
  have hroom' : ∀ f ∈ fs, HostArrival.Fits f := by
    intro f hf
    obtain ⟨m, hm, rfl⟩ := List.mem_map.mp hf
    have hm := hlen m hm
    show (logData capacity m.1 m.2).length + 1 ≤ 256
    simp only [logData, message, List.length_cons, List.length_append,
      List.length_nil]
    omega
  have houtcomes : (outcomes fs).map Prod.snd = delivered capacity messages :=
    outcomes_logData fun m hm => Nat.le_trans (hlen m hm) (by decide)
  have hlogs : queued (outcomes fs) = [] := by
    apply queued_logs
    intro f hf
    obtain ⟨m, _, rfl⟩ := List.mem_map.mp hf
    rfl
  obtain ⟨host, hrun, hleft⟩ := runThread_new crc8 hroom' hframes
  have hqueue := hleft.queue
  rw [hlogs] at hqueue
  rw [filterMap_processed crc8 Py.Bus.tracks_new, hrun]
  exact ⟨houtcomes, hqueue⟩

/-- A bus with a log packet of seven bytes, and two messages, of which the
second is cut inside a character. -/
theorem logs_delivered_cut :
    ∃ bytes bus', doLogs (writePacket crc8Poly07 ⟨4, fun _ _ => [],
        fun _ _ _ => []⟩ (fun _ => .error .deep) 0) (LogMessages.busOf 7)
        [(4, [0x48, 0x69]), (2, [0x48, 0x69, 0x20, 0xC3, 0xA9])] =
        .ok (bytes, bus') ∧
      ∀ inputs : List (Option UInt8), inputs.filterMap id = bytes →
        (incomingDataThread crc8Poly07 .new inputs).filterMap Poll.processed =
          delivered 7 [(4, [0x48, 0x69]), (2, [0x48, 0x69, 0x20, 0xC3, 0xA9])] ∧
        (runThread crc8Poly07 .new inputs).2.recvQueue = [] :=
  @logs_delivered crc8Poly07 ⟨4, fun _ _ => [], fun _ _ _ => []⟩
    (fun _ => .error .deep) 0 (LogMessages.busOf 7) 0 7 ⟨rfl, rfl, rfl⟩
    (by decide) _ (by decide)

example : delivered 7
    [(4, [0x48, 0x69]), (2, [0x48, 0x69, 0x20, 0xC3, 0xA9])] =
    [.ok (.logged 20 "Hi"), .error .unicodeDecodeError] := by decide +kernel

end DuinoBus.LogDelivery
