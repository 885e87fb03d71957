import DuinoBus.HostThread

/-!
# What ends the receive thread of the host

`incoming_data_thread` catches nothing.  The decoder raises nothing either,
but a packet under `LOG` is unpacked as soon as the decoder is done with it,
accepted or refused, and unpacking raises `IndexError` when the level or the
length of the text is missing and `UnicodeDecodeError` when the text is no
UTF-8.

`survives_iff` is the exact condition: the thread reads everything that
arrives if and only if no byte makes it process a log message that cannot be
read.
-/

namespace DuinoBus.HostSurvival

open DuinoBus.Wire
open DuinoBus.Verified
open DuinoBus.Py
open DuinoBus.HostThread

/-- The thread polls every input, and no poll raises. -/
def Survives (crc8 : UInt8 → UInt8 → UInt8) (inputs : List (Option UInt8)) :
    Prop :=
  (incomingDataThread crc8 .new inputs).length = inputs.length ∧
    ∀ p ∈ incomingDataThread crc8 .new inputs, ∀ f,
      p.processed ≠ some (.error f)

/-! ## Log messages that can be read -/

/-- The text of a log message, of which the terminating null is dropped. -/
def logText (cStr : List UInt8) : List UInt8 :=
  if 1 < cStr.length then cStr.dropLast else cStr

/-- A level, the length of the text, and text in UTF-8. -/
def ReadableLog (data : List UInt8) : Prop :=
  ∃ level strLen cStr, data = level :: strLen :: cStr ∧
    ByteArray.IsValidUTF8 ⟨(logText (cStr.take strLen.toNat)).toArray⟩

/-- The data of the packet that the thread processes after the byte, if it
processes one: what is stored, without the CRC at a closing `END`. -/
def processedData (d : PacketDecoder Packet) (byte : UInt8) :
    Option (List UInt8) :=
  if d.state = .data then
    if byte = END ∧ d.escape = false then some d.packet.data.dropLast
    else if byte = ESC ∧ d.escape = false then none
    else if Packet.MAX_DATA_LEN ≤ d.packet.data.length then
      some d.packet.data
    else none
  else none

/-- The byte makes the thread process a log message that cannot be read. -/
def Kills (d : PacketDecoder Packet) (byte : UInt8) : Prop :=
  d.packet.cmd = Bus.LOG ∧
    ∃ data, processedData d byte = some data ∧ ¬ ReadableLog data

private theorem decodeUtf8_ok_iff (bytes : List UInt8) :
    (∃ str, Unpacker.decodeUtf8 bytes = .ok str) ↔
      ByteArray.IsValidUTF8 ⟨bytes.toArray⟩ := by
  unfold Unpacker.decodeUtf8 String.fromUTF8?
  by_cases h : ByteArray.IsValidUTF8 ⟨bytes.toArray⟩
  · rw [dif_pos h]
    exact ⟨fun _ => h, fun _ => ⟨_, rfl⟩⟩
  · rw [dif_neg h]
    constructor
    · rintro ⟨str, hstr⟩
      cases hstr
    · intro hvalid
      exact absurd hvalid h

/-- What is unpacked from a message with a level and a length. -/
theorem unpackLog_cons {pkt : Packet} {level strLen : UInt8}
    {cStr : List UInt8} (h : pkt.data = level :: strLen :: cStr) :
    Bus.unpackLog pkt =
      (Unpacker.decodeUtf8 (logText (cStr.take strLen.toNat))).map
        (.logged (Bus.PYTHON_LOG_LEVEL.getD level.toNat Bus.ERROR_LEVEL)) := by
  rw [Bus.unpackLog, h]
  simp only [Unpacker.new, Unpacker.unpackU8, Unpacker.unpackStr,
    Unpacker.unpackData, bind, Except.bind, pure, Except.pure,
    List.getElem?_cons_zero, List.getElem?_cons_succ, List.drop_succ_cons,
    List.drop_zero, logText]
  split
  · next h =>
      split at h
      · next hstr =>
          rw [hstr]
          exact congrArg Except.error (Except.error.inj h).symm
      · cases h
  · next h =>
      split at h
      · cases h
      · next hstr =>
          cases h
          rw [hstr]
          rfl

/-- Unpacking a log message raises exactly if it cannot be read. -/
theorem unpackLog_ok_iff (pkt : Packet) :
    (∃ processed, Bus.unpackLog pkt = .ok processed) ↔
      ReadableLog pkt.data := by
  have hshort : pkt.data.length < 2 →
      ¬ ∃ processed, Bus.unpackLog pkt = .ok processed := by
    intro hlen
    have hnone : pkt.data[1]? = none := List.getElem?_eq_none (by omega)
    rintro ⟨processed, h⟩
    simp only [Bus.unpackLog, Unpacker.new, Unpacker.unpackU8,
      Unpacker.unpackStr, bind, Except.bind] at h
    cases hlevel : pkt.data[0]? with
    | none =>
        rw [hlevel] at h
        cases h
    | some level =>
        rw [hlevel] at h
        simp only [Nat.zero_add, hnone] at h
        cases h
  constructor
  · intro h
    rcases hdata : pkt.data with _ | ⟨level, _ | ⟨strLen, cStr⟩⟩
    · exact absurd h (hshort (by rw [hdata]; exact Nat.zero_lt_two))
    · exact absurd h (hshort (by rw [hdata]; exact Nat.one_lt_two))
    · refine ⟨level, strLen, cStr, rfl, ?_⟩
      obtain ⟨processed, h⟩ := h
      rw [unpackLog_cons hdata] at h
      apply (decodeUtf8_ok_iff _).mp
      cases hstr : Unpacker.decodeUtf8 (logText (cStr.take strLen.toNat)) with
      | error f =>
          rw [hstr] at h
          cases h
      | ok str => exact ⟨str, rfl⟩
  · rintro ⟨level, strLen, cStr, hdata, hvalid⟩
    obtain ⟨str, hstr⟩ := (decodeUtf8_ok_iff _).mpr hvalid
    rw [unpackLog_cons hdata, hstr]
    exact ⟨_, rfl⟩

/-! ## The packet that is processed -/

section Polls

variable (crc8 : UInt8 → UInt8 → UInt8) {d d' : PacketDecoder Packet}
  {byte : UInt8} {err : ErrorCode}

/-- Storing a byte is done with the packet if there is no room for it. -/
private theorem decodeByteData_store {b : UInt8}
    (hb : ¬ (b = END ∧ d.escape = false))
    (hstep : d.decodeByteData crc8 b = .ok (err, d')) :
    (Packet.MAX_DATA_LEN ≤ d.packet.data.length → err ≠ .notDone ∧
      d'.packet.cmd = d.packet.cmd ∧ d'.packet.data = d.packet.data) ∧
    (¬ Packet.MAX_DATA_LEN ≤ d.packet.data.length → err = .notDone) := by
  rw [PacketDecoder.decodeByteData, if_neg hb, Packet.getDataLen] at hstep
  constructor
  · intro hfull
    rw [if_pos hfull] at hstep
    cases hstep
    exact ⟨by decide, rfl, rfl⟩
  · intro hroom
    rw [if_neg hroom] at hstep
    cases hstep
    rfl

/-- A closing `END` is done with the packet, of which it takes the CRC. -/
private theorem decodeByteData_close (hescape : d.escape = false)
    (hstep : d.decodeByteData crc8 END = .ok (err, d')) :
    err ≠ .notDone ∧ d'.packet.cmd = d.packet.cmd ∧
      d'.packet.data = d.packet.data.dropLast := by
  rw [PacketDecoder.decodeByteData, if_pos ⟨rfl, hescape⟩] at hstep
  split at hstep
  · next hzero =>
      cases hstep
      have hnil : d.packet.data = [] := List.length_eq_zero_iff.mp hzero
      refine ⟨by decide, rfl, ?_⟩
      rw [hnil]
      rfl
  · cases hlast : d.packet.data.getLast? with
    | none =>
        simp [Packet.extractCrc, hlast, bind, Except.bind] at hstep
    | some crc =>
        simp only [Packet.extractCrc, hlast, bind, Except.bind, pure,
          Except.pure] at hstep
        split at hstep
        · cases hstep
          exact ⟨by decide, rfl, rfl⟩
        · cases hstep
          exact ⟨by decide, rfl, rfl⟩

/-- The decoder is done with a packet exactly if there is processed data, and
this is then what its packet holds. -/
def DoneWith (d d' : PacketDecoder Packet) (byte : UInt8) (err : ErrorCode) :
    Prop :=
  (err = .notDone ↔ processedData d byte = none) ∧
    ∀ data, processedData d byte = some data →
      d'.packet.cmd = d.packet.cmd ∧ d'.packet.data = data

private theorem doneWith_none (hdata : processedData d byte = none)
    (herr : err = .notDone) : DoneWith d d' byte err := by
  refine ⟨⟨fun _ => hdata, fun _ => herr⟩, ?_⟩
  intro data h
  rw [hdata] at h
  cases h

private theorem doneWith_some {data : List UInt8}
    (hdata : processedData d byte = some data) (herr : err ≠ .notDone)
    (hcmd : d'.packet.cmd = d.packet.cmd) (hpkt : d'.packet.data = data) :
    DoneWith d d' byte err := by
  constructor
  · constructor
    · intro h
      exact absurd h herr
    · intro h
      rw [hdata] at h
      cases h
  · intro data' h
    rw [hdata] at h
    exact ⟨hcmd, hpkt.trans (Option.some.inj h)⟩

private theorem doneWith_store {b : UInt8} (hstate : d.state = .data)
    (hend : ¬ (byte = END ∧ d.escape = false))
    (hesc : ¬ (byte = ESC ∧ d.escape = false))
    (hb : ¬ (b = END ∧ d.escape = false))
    (hstep : d.decodeByteData crc8 b = .ok (err, d')) :
    DoneWith d d' byte err := by
  have hdata : processedData d byte =
      if Packet.MAX_DATA_LEN ≤ d.packet.data.length then some d.packet.data
      else none := by
    rw [processedData, if_pos hstate, if_neg hend, if_neg hesc]
  obtain ⟨hfull, hroom⟩ := decodeByteData_store crc8 hb hstep
  by_cases hlen : Packet.MAX_DATA_LEN ≤ d.packet.data.length
  · rw [if_pos hlen] at hdata
    obtain ⟨herr, hcmd, hpkt⟩ := hfull hlen
    exact doneWith_some hdata herr hcmd hpkt
  · rw [if_neg hlen] at hdata
    exact doneWith_none hdata (hroom hlen)

/-- What the decoder is done with at a byte of the data that no escape
precedes. -/
private theorem doneWith_bare (hstate : d.state = .data)
    (hescape : d.escape = false)
    (hstep : d.decodeByte crc8 byte = .ok (err, d')) :
    DoneWith d d' byte err := by
  have hne : d.state ≠ .idle := by
    rw [hstate]
    decide
  rw [PacketDecoder.decodeByte_bare crc8 byte hne hescape,
    PacketDecoder.decodeByteState_data crc8 hstate] at hstep
  by_cases hesc : byte = ESC
  · have hend : ¬ (byte = END ∧ d.escape = false) := by
      rintro ⟨hend, _⟩
      rw [hesc] at hend
      exact absurd hend (by decide)
    rw [if_pos hesc] at hstep
    cases hstep
    apply doneWith_none _ rfl
    rw [processedData, if_pos hstate, if_neg hend, if_pos ⟨hesc, hescape⟩]
  · rw [if_neg hesc] at hstep
    by_cases hend : byte = END
    · rw [hend] at hstep
      obtain ⟨herr, hcmd, hpkt⟩ := decodeByteData_close crc8 hescape hstep
      refine doneWith_some ?_ herr hcmd hpkt
      rw [processedData, if_pos hstate, if_pos ⟨hend, hescape⟩]
    · exact doneWith_store crc8 hstate (fun h => hend h.1)
        (fun h => hesc h.1) (fun h => hend h.1) hstep

/-- What the decoder is done with at a byte of the data behind an escape. -/
private theorem doneWith_escaped (hstate : d.state = .data)
    (hescape : d.escape = true)
    (hstep : d.decodeByte crc8 byte = .ok (err, d')) :
    DoneWith d d' byte err := by
  have hne : d.state ≠ .idle := by
    rw [hstate]
    decide
  have hno : ∀ p : Prop, ¬ (p ∧ d.escape = false) := by
    intro p hp
    rw [hescape] at hp
    cases hp.2
  rw [PacketDecoder.decodeByte_escaped crc8 byte hne hescape,
    PacketDecoder.decodeByteState_data crc8 hstate] at hstep
  exact doneWith_store crc8 hstate (hno _) (hno _) (hno _) hstep

/-- What the decoder is done with at a byte, in every phase of a frame. -/
theorem doneWith_decodeByte {ph : Phase UInt8} (h : d.Tracks ph)
    (hstep : d.decodeByte crc8 byte = .ok (err, d')) :
    DoneWith d d' byte err := by
  have hbetween : d.state ≠ .data →
      (hostReceiver crc8 Packet.MAX_DATA_LEN).machine.out ph byte = .pending →
        DoneWith d d' byte err := by
    intro hstate hout
    obtain ⟨err', d'', hok, hreport, _⟩ :=
      PacketDecoder.shows_decodeByte crc8 h byte
    rw [hok] at hstep
    cases hstep
    have herr := eq_errorCode hreport
    rw [← Receiver.out_eq, hout] at herr
    exact doneWith_none (if_neg hstate) herr
  cases ph with
  | idle => exact hbetween (by rw [h.1]; decide) rfl
  | command e =>
      exact hbetween (by rw [h.1]; decide) (Receiver.out_command _ e byte)
  | body e cmd buf =>
      have hstate : d.state = .data := h.1
      cases hescape : d.escape with
      | true => exact doneWith_escaped crc8 hstate hescape hstep
      | false => exact doneWith_bare crc8 hstate hescape hstep

/-! ## The thread -/

/-- Processing the packet of the decoder raises exactly if it is a log message
that cannot be read. -/
private theorem processPacket_ok_iff (bus : Bus) (pkt : Ref) :
    (∃ r, bus.processPacket pkt = .ok r) ↔
      ((bus.store pkt).cmd = Bus.LOG → ReadableLog (bus.store pkt).data) := by
  by_cases hlog : (bus.store pkt).cmd = Bus.LOG
  · rw [Bus.processPacket, if_pos hlog, ← unpackLog_ok_iff]
    cases hunpack : Bus.unpackLog (bus.store pkt) with
    | error f =>
        constructor
        · rintro ⟨r, hr⟩
          cases hr
        · intro h
          obtain ⟨processed, h⟩ := h hlog
          cases h
    | ok processed => exact ⟨fun _ _ => ⟨processed, rfl⟩, fun _ => ⟨_, rfl⟩⟩
  · rw [Bus.processPacket, if_neg hlog]
    exact ⟨fun _ h => absurd h hlog, fun _ => ⟨_, rfl⟩⟩

/-- No exception comes out of a poll exactly if its packet, if it has one, is
processed. -/
private theorem no_error_iff {α : Type} (r : Except Fault (Processed × α)) :
    (∀ f, some (r.map Prod.fst) ≠ some (.error f)) ↔ ∃ x, r = .ok x := by
  cases r with
  | error f =>
      constructor
      · intro h
        exact absurd rfl (h f)
      · rintro ⟨x, hx⟩
        cases hx
  | ok x =>
      constructor
      · intro _
        exact ⟨x, rfl⟩
      · intro _ f hf
        cases hf

/-- A byte after which nothing is processed does not kill the thread. -/
private theorem not_kills_of_none (hdata : processedData d byte = none) :
    ¬ Kills d byte := by
  rintro ⟨_, data, hsome, _⟩
  rw [hdata] at hsome
  cases hsome

/-- A byte after which some data is processed kills the thread unless this is
no log message, or one that can be read. -/
private theorem not_kills_iff {data : List UInt8}
    (hdata : processedData d byte = some data) :
    ¬ Kills d byte ↔ (d.packet.cmd = Bus.LOG → ReadableLog data) := by
  constructor
  · intro hsafe hlog
    by_contra hbad
    exact hsafe ⟨hlog, data, hdata, hbad⟩
  · rintro hread ⟨hlog, data', hdata', hbad⟩
    rw [hdata] at hdata'
    cases hdata'
    exact hbad (hread hlog)

/-- A poll raises exactly if its byte kills the thread. -/
theorem raises_iff {p : Poll} {bus bus' : Bus} {ph : Phase UInt8}
    (h : PollOf crc8 p bus bus' ph) :
    (∀ f, p.processed ≠ some (.error f)) ↔
      ∀ byte, p.input = some byte → ¬ Kills p.before byte := by
  have hprocessed := h.processed
  have hprocess := h.process
  cases hinput : p.input with
  | none =>
      rw [hinput] at hprocess
      have herr : p.err = .notDone :=
        (congrArg Prod.fst (Except.ok.inj hprocess)).symm
      rw [if_pos herr] at hprocessed
      rw [hprocessed]
      constructor
      · intro _ byte hbyte
        cases hbyte
      · intro _ f hf
        cases hf
  | some byte =>
      obtain ⟨err, d', hdecode, hbyte, _, _⟩ :=
        Bus.processByte_eq crc8 h.tracks byte
      rw [hinput, hbyte] at hprocess
      cases hprocess
      obtain ⟨hiff, hpkt⟩ := doneWith_decodeByte crc8 h.tracks hdecode
      have hbyte : (∀ b, some byte = some b → ¬ Kills p.before b) ↔
          ¬ Kills bus.openDecoder byte := by
        rw [h.before]
        exact ⟨fun hall => hall byte rfl,
          fun hsafe b hb => Option.some.inj hb ▸ hsafe⟩
      rw [hbyte, hprocessed]
      by_cases herr : p.err = .notDone
      · rw [if_pos herr]
        apply iff_of_true
        · intro f hf
          cases hf
        · exact not_kills_of_none (hiff.mp herr)
      · obtain ⟨data, hdata⟩ := Option.ne_none_iff_exists'.mp
          (fun hnone => herr (hiff.mpr hnone))
        obtain ⟨hcmd, hstored⟩ := hpkt data hdata
        have hclosed : (bus.closeDecoder d').store
            (bus.closeDecoder d').decoder.packet = d'.packet :=
          Bus.packet_closeDecoder bus d'
        rw [if_neg herr, no_error_iff, processPacket_ok_iff, hclosed, hcmd,
          hstored, not_kills_iff hdata]

end Polls

/-- **When the receive thread survives.**  It reads everything that arrives,
without an exception, if and only if no byte makes it process a log message
without a level, without a length, or with a text that is no UTF-8. -/
theorem survives_iff (crc8 : UInt8 → UInt8 → UInt8)
    (inputs : List (Option UInt8)) :
    Survives crc8 inputs ↔
      ∀ p ∈ incomingDataThread crc8 .new inputs, ∀ byte,
        p.input = some byte → ¬ Kills p.before byte := by
  have hpolls := pollOf_of_mem crc8 Bus.tracks_new inputs
  constructor
  · rintro ⟨_, hok⟩ p hp
    obtain ⟨bus, bus', ph, hpoll⟩ := hpolls p hp
    exact (raises_iff crc8 hpoll).mp (hok p hp)
  · intro hsafe
    have hok : ∀ p ∈ incomingDataThread crc8 .new inputs, ∀ f,
        p.processed ≠ some (.error f) := by
      intro p hp
      obtain ⟨bus, bus', ph, hpoll⟩ := hpolls p hp
      exact (raises_iff crc8 hpoll).mpr (hsafe p hp)
    exact ⟨length_incomingDataThread crc8 Bus.tracks_new hok, hok⟩

/-- A log message without data, in a frame with the right CRC, ends the
thread: the unpacker finds no level. -/
theorem survives_fails :
    ¬ ∀ inputs : List (Option UInt8), Survives crc8Poly07 inputs := by
  intro h
  have hok := (h ((frame crc8Poly07 Bus.LOG []).map some)).2
  have hraised : ∃ p ∈ incomingDataThread crc8Poly07 .new
      ((frame crc8Poly07 Bus.LOG []).map some),
      p.processed = some (.error .indexError) := by
    decide +kernel
  obtain ⟨p, hp, herror⟩ := hraised
  exact hok p hp .indexError herror

end DuinoBus.HostSurvival
