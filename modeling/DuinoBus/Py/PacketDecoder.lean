import DuinoBus.Py.Packet

/-!
# The host's decoder

The same machine as the device's up to the refusals: too small a frame leaves
it in the command state here, and a wrong CRC in the idle state.

`simulates` and `decodeAll_eq` connect it to the abstract receiver, as for
the device.
-/

namespace DuinoBus.Py

open DuinoBus.Wire
open DuinoBus.Verified

/-- The states of the decoder, and any other value `state` could have. -/
inductive PacketDecoder.State where
  | idle
  | command
  | data
  | other
  deriving DecidableEq, Repr

/-- A decoder that has its packet at hand as a `π`: the packet itself here,
a reference to it where packets are shared. -/
structure PacketDecoder (π : Type) where
  packet : π
  state : PacketDecoder.State
  escape : Bool
  deriving DecidableEq, Repr

namespace PacketDecoder

def new {π : Type} (pkt : π) : PacketDecoder π := ⟨pkt, .idle, false⟩

section Code

variable (crc8 : UInt8 → UInt8 → UInt8)

def decodeByteIdle (d : PacketDecoder Packet) (byte : UInt8) :
    ErrorCode × PacketDecoder Packet :=
  if byte = END then (.notDone, { d with state := .command })
  else (.notDone, d)

def decodeByteCommand (d : PacketDecoder Packet) (byte : UInt8) :
    ErrorCode × PacketDecoder Packet :=
  if byte = END ∧ d.escape = false then (.notDone, d)
  else
    (.notDone, { d with
      escape := false
      packet := (d.packet.setCommand byte).setData []
      state := .data })

def decodeByteData (d : PacketDecoder Packet) (byte : UInt8) :
    Except Fault (ErrorCode × PacketDecoder Packet) :=
  if byte = END ∧ d.escape = false then
    if d.packet.getDataLen = 0 then
      .ok (.tooSmall, { d with state := .command })
    else do
      let (rcvdCrc, packet) ← d.packet.extractCrc
      let d := { d with packet, state := .idle }
      if rcvdCrc = d.packet.calcCrc crc8 then return (.none, d)
      else return (.crc, d)
  else if Packet.MAX_DATA_LEN ≤ d.packet.getDataLen then
    .ok (.tooMuchData, { d with escape := false })
  else
    .ok (.notDone, { d with
      escape := false
      packet := d.packet.appendByte byte })

/-- The handler of the state the decoder is in. -/
def decodeByteState (d : PacketDecoder Packet) (byte : UInt8) :
    Except Fault (ErrorCode × PacketDecoder Packet) :=
  match d.state with
  | .idle => .ok (d.decodeByteIdle byte)
  | .command => .ok (d.decodeByteCommand byte)
  | .data => d.decodeByteData crc8 byte
  | .other => .ok (.badState, d)

def decodeByte (d : PacketDecoder Packet) (byte : UInt8) :
    Except Fault (ErrorCode × PacketDecoder Packet) :=
  if d.state = .idle then d.decodeByteState crc8 byte
  else if d.escape then
    if byte = ESC_END then d.decodeByteState crc8 END
    else if byte = ESC_ESC then d.decodeByteState crc8 ESC
    else d.decodeByteState crc8 byte
  else if byte = ESC then .ok (.notDone, { d with escape := true })
  else d.decodeByteState crc8 byte

/-- What a caller sees of a decoder and the code it returned. -/
def report (d : PacketDecoder Packet) (err : ErrorCode) : Report :=
  observe err d.packet.cmd d.packet.data d.packet.crc

/-- One byte, with what the caller sees after it. -/
def decodeReport (d : PacketDecoder Packet) (byte : UInt8) :
    Except Fault (Report × PacketDecoder Packet) := do
  let (err, d) ← d.decodeByte crc8 byte
  return (d.report err, d)

/-- Feed bytes one after the other. -/
def decodeAll : PacketDecoder Packet → List UInt8 →
    Except Fault (List Report × PacketDecoder Packet) :=
  feed (decodeReport crc8)

/-- The decoder after some bytes, new at their beginning. -/
def after (pkt : Packet) (front : List UInt8) :
    Except Fault (PacketDecoder Packet) := do
  let (_, d) ← (new pkt).decodeAll crc8 front
  return d

/-- The escape flag of that decoder. -/
def escapeAfter (pkt : Packet) (front : List UInt8) : Except Fault Bool := do
  let d ← after crc8 pkt front
  return d.escape

/-- What is seen over some bytes of a decoder that was new before `front`. -/
def decodeAfter (pkt : Packet) (front bytes : List UInt8) :
    Except Fault (List Report) := do
  let d ← after crc8 pkt front
  let (reports, _) ← d.decodeAll crc8 bytes
  return reports

/-- The byte is the command of a frame: the decoder begins to fill its packet
with it. -/
def StartsPacket {π : Type} (d : PacketDecoder π) (byte : UInt8) : Prop :=
  d.state = .command ∧ (d.escape = true ∨ byte ≠ END ∧ byte ≠ ESC)

instance {π : Type} (d : PacketDecoder π) (byte : UInt8) :
    Decidable (d.StartsPacket byte) :=
  inferInstanceAs (Decidable (_ ∧ _))

end Code

/-! ## The receiver behind it -/

/-- The decoder is in a phase of the receiver. -/
def Tracks (d : PacketDecoder Packet) : Phase UInt8 → Prop
  | .idle => d.state = .idle ∧ d.escape = false
  | .command e => d.state = .command ∧ d.escape = e
  | .body e cmd buf =>
      d.state = .data ∧ d.escape = e ∧ d.packet.cmd = cmd ∧
        d.packet.data = buf

/-- A result shows an answer of the receiver and leaves the decoder in the
phase that comes with it. -/
def Shows (r : Except Fault (ErrorCode × PacketDecoder Packet))
    (a : Phase UInt8 × Verdict UInt8) : Prop :=
  ∃ err d', r = .ok (err, d') ∧ d'.report err = Wire.report a.2 ∧
    Tracks d' a.1

theorem Tracks.escape_eq {d : PacketDecoder Packet} {ph : Phase UInt8}
    (h : Tracks d ph) : d.escape = ph.escaped := by
  cases ph with
  | idle => exact h.2
  | command e => exact h.2
  | body e cmd buf => exact h.2.1

theorem tracks_new (pkt : Packet) : Tracks (new pkt) .idle := ⟨rfl, rfl⟩

theorem shows_notDone {d : PacketDecoder Packet} {ph : Phase UInt8}
    (h : Tracks d ph) : Shows (.ok (.notDone, d)) (ph, .pending) := by
  refine ⟨.notDone, d, rfl, ?_, h⟩
  simp [report, observe, Wire.report]

section Step

variable (crc8 : UInt8 → UInt8 → UInt8) {d : PacketDecoder Packet}

theorem shows_decodeByteIdle (h : Tracks d .idle) (byte : UInt8) :
    Shows (.ok (d.decodeByteIdle byte))
      (if byte = END then .command false else .idle, .pending) := by
  obtain ⟨hstate, hescape⟩ := h
  unfold decodeByteIdle
  split
  · exact shows_notDone ⟨rfl, hescape⟩
  · exact shows_notDone ⟨hstate, hescape⟩

theorem decodeByteCommand_end (h : Tracks d (.command false)) :
    Shows (.ok (d.decodeByteCommand END)) (.command false, .pending) := by
  rw [decodeByteCommand, if_pos ⟨rfl, h.2⟩]
  exact shows_notDone h

/-- A byte that is not a bare `END` is the command. -/
theorem shows_decodeByteCommand {e : Bool} (h : Tracks d (.command e))
    (byte : UInt8) (hb : ¬ (byte = END ∧ e = false)) :
    Shows (.ok (d.decodeByteCommand byte))
      (.body false byte [], .pending) := by
  have hescape : d.escape = e := h.2
  rw [decodeByteCommand, hescape, if_neg hb]
  exact shows_notDone ⟨rfl, rfl, rfl, rfl⟩

/-- A byte that is not a bare `END` is stored, or dropped when the data is
full. -/
theorem shows_store {e : Bool} {cmd : UInt8} {buf : List UInt8}
    (h : Tracks d (.body e cmd buf)) (byte : UInt8)
    (hb : ¬ (byte = END ∧ e = false)) :
    Shows (d.decodeByteData crc8 byte)
      ((hostReceiver crc8 Packet.MAX_DATA_LEN).store cmd buf byte) := by
  obtain ⟨hstate, hescape, hcmd, hdata⟩ := h
  have hlen : d.packet.getDataLen = buf.length := congrArg List.length hdata
  rw [decodeByteData, hescape, if_neg hb, hlen, Receiver.store]
  by_cases hfull : Packet.MAX_DATA_LEN ≤ buf.length
  · rw [if_pos hfull, if_pos (show (hostReceiver crc8
      Packet.MAX_DATA_LEN).capacity ≤ buf.length from hfull)]
    exact ⟨.tooMuchData, _, rfl, by simp [report, observe, Wire.report],
      hstate, rfl, hcmd, hdata⟩
  · rw [if_neg hfull, if_neg (show ¬ (hostReceiver crc8
      Packet.MAX_DATA_LEN).capacity ≤ buf.length from hfull)]
    exact shows_notDone ⟨hstate, rfl, hcmd, congrArg (· ++ [byte]) hdata⟩

/-- A bare `END` closes the frame. -/
theorem shows_close {cmd : UInt8} {buf : List UInt8}
    (h : Tracks d (.body false cmd buf)) :
    Shows (d.decodeByteData crc8 END)
      ((hostReceiver crc8 Packet.MAX_DATA_LEN).close cmd buf) := by
  obtain ⟨_, hescape, hcmd, hdata⟩ := h
  rw [decodeByteData, if_pos ⟨rfl, hescape⟩]
  rcases List.eq_nil_or_concat buf with rfl | ⟨body, sum, rfl⟩
  · have hzero : d.packet.getDataLen = 0 := congrArg List.length hdata
    rw [if_pos hzero, Receiver.close_nil]
    exact ⟨.tooSmall, _, rfl, by simp [report, observe, Wire.report],
      rfl, hescape⟩
  · rw [List.concat_eq_append] at hdata ⊢
    have hne : d.packet.getDataLen ≠ 0 := by
      rw [Packet.getDataLen, hdata, List.length_append, List.length_singleton]
      omega
    rw [if_neg hne, Packet.extractCrc_concat hdata, Receiver.close_concat]
    simp only [bind, Except.bind, pure, Except.pure, Packet.calcCrc_eq, hcmd]
    by_cases hcrc : sum = checksum crc8 cmd body
    · rw [if_pos hcrc, if_pos (show sum =
        (hostReceiver crc8 Packet.MAX_DATA_LEN).check cmd body from hcrc)]
      refine ⟨.none, _, rfl, ?_, rfl, hescape⟩
      simp [report, observe, Wire.report]
    · rw [if_neg hcrc, if_neg (show ¬ sum =
        (hostReceiver crc8 Packet.MAX_DATA_LEN).check cmd body from hcrc)]
      exact ⟨.crc, _, rfl, by simp [report, observe, Wire.report], rfl, hescape⟩

/-- Inside a frame, an escaped byte is handled as the literal it stands
for. -/
theorem decodeByte_escaped (byte : UInt8) (hstate : d.state ≠ .idle)
    (hescape : d.escape = true) :
    d.decodeByte crc8 byte = d.decodeByteState crc8 (slip.literal byte) := by
  rw [decodeByte, if_neg hstate, if_pos hescape, Stuffing.literal]
  show _ = d.decodeByteState crc8
    (if byte = ESC_END then END else if byte = ESC_ESC then ESC else byte)
  split
  · rfl
  · split <;> rfl

/-- Inside a frame, a byte that no escape precedes. -/
theorem decodeByte_bare (byte : UInt8) (hstate : d.state ≠ .idle)
    (hescape : d.escape = false) :
    d.decodeByte crc8 byte =
      if byte = ESC then .ok (.notDone, { d with escape := true })
      else d.decodeByteState crc8 byte := by
  have hne : ¬ d.escape = true := by
    rw [hescape]
    decide
  rw [decodeByte, if_neg hstate, if_neg hne]

theorem decodeByteState_command (h : d.state = .command) (byte : UInt8) :
    d.decodeByteState crc8 byte = .ok (d.decodeByteCommand byte) := by
  rw [decodeByteState, h]

theorem decodeByteState_data (h : d.state = .data) (byte : UInt8) :
    d.decodeByteState crc8 byte = d.decodeByteData crc8 byte := by
  rw [decodeByteState, h]

/-- **One byte**: the code shows what the receiver answers. -/
theorem shows_decodeByte {ph : Phase UInt8} (h : Tracks d ph) (byte : UInt8) :
    Shows (d.decodeByte crc8 byte)
      ((hostReceiver crc8 Packet.MAX_DATA_LEN).step ph byte) := by
  have hcommand : d.state = .command → d.state ≠ .idle := by
    intro hstate
    rw [hstate]
    decide
  have hdata : d.state = .data → d.state ≠ .idle := by
    intro hstate
    rw [hstate]
    decide
  match ph, h with
  | .idle, h =>
      have hstate : d.state = .idle := h.1
      rw [decodeByte, if_pos hstate, decodeByteState, hstate]
      exact shows_decodeByteIdle h byte
  | .command true, h =>
      rw [decodeByte_escaped crc8 byte (hcommand h.1) h.2,
        decodeByteState_command crc8 h.1]
      exact shows_decodeByteCommand h _ (fun hb => absurd hb.2 (by decide))
  | .command false, h =>
      rw [decodeByte_bare crc8 byte (hcommand h.1) h.2,
        decodeByteState_command crc8 h.1, Receiver.step]
      show Shows _ (if byte = ESC then _ else if byte = END then _ else _)
      split
      · exact shows_notDone ⟨h.1, rfl⟩
      · split
        · next hend => exact hend ▸ decodeByteCommand_end h
        · next hend =>
            exact shows_decodeByteCommand h byte (fun hb => hend hb.1)
  | .body true cmd buf, h =>
      rw [decodeByte_escaped crc8 byte (hdata h.1) h.2.1,
        decodeByteState_data crc8 h.1]
      exact shows_store crc8 h _ (fun hb => absurd hb.2 (by decide))
  | .body false cmd buf, h =>
      rw [decodeByte_bare crc8 byte (hdata h.1) h.2.1,
        decodeByteState_data crc8 h.1, Receiver.step]
      show Shows _ (if byte = ESC then _ else if byte = END then _ else _)
      split
      · exact shows_notDone ⟨h.1, rfl, h.2.2⟩
      · split
        · next hend => exact hend ▸ shows_close crc8 h
        · next hend =>
            exact shows_store crc8 h byte (fun hb => hend hb.1)

/-- Between frames, a byte that is not a command leaves the packet alone. -/
theorem packet_eq_of_not_startsPacket {d' : PacketDecoder Packet}
    {ph : Phase UInt8} {err : ErrorCode} {byte : UInt8} (h : Tracks d ph)
    (hph : ph.Between) (hnot : ¬ d.StartsPacket byte)
    (hstep : d.decodeByte crc8 byte = .ok (err, d')) :
    d'.packet = d.packet ∧
      ((hostReceiver crc8 Packet.MAX_DATA_LEN).machine.next ph
        byte).Between := by
  rcases hph with rfl | ⟨e, rfl⟩
  · have hstate : d.state = .idle := h.1
    rw [decodeByte, if_pos hstate, decodeByteState, hstate] at hstep
    refine ⟨?_, ?_⟩
    · simp only [decodeByteIdle] at hstep
      split at hstep <;> cases hstep <;> rfl
    · rw [Receiver.next_eq, Receiver.step]
      split
      · exact .inr ⟨false, rfl⟩
      · exact .inl rfl
  · obtain ⟨hstate, hescape⟩ := h
    have hne : d.state ≠ .idle := by rw [hstate]; decide
    have hclear : d.escape = false := by
      cases he : d.escape with
      | false => rfl
      | true => exact absurd ⟨hstate, .inl he⟩ hnot
    rw [hescape] at hclear
    subst hclear
    rw [decodeByte_bare crc8 byte hne hescape,
      decodeByteState_command crc8 hstate] at hstep
    rw [Receiver.next_eq, Receiver.step]
    show d'.packet = d.packet ∧ Phase.Between
      (if byte = ESC then _ else if byte = END then _ else _ :
        Phase UInt8 × Verdict UInt8).1
    by_cases hesc : byte = ESC
    · rw [if_pos hesc] at hstep
      cases hstep
      rw [if_pos hesc]
      exact ⟨rfl, .inr ⟨true, rfl⟩⟩
    · by_cases hend : byte = END
      · rw [if_neg hesc, decodeByteCommand, if_pos ⟨hend, hescape⟩] at hstep
        cases hstep
        rw [if_neg hesc, if_pos hend]
        exact ⟨rfl, .inr ⟨false, rfl⟩⟩
      · exact absurd ⟨hstate, .inr ⟨hend, hesc⟩⟩ hnot

end Step

/-! ## Whole inputs -/

section Runs

variable (crc8 : UInt8 → UInt8 → UInt8)

/-- The code simulates the receiver. -/
theorem simulates :
    Simulates (decodeReport crc8)
      (hostReceiver crc8 Packet.MAX_DATA_LEN).machine Tracks Wire.report where
  step := by
    intro d ph byte h
    obtain ⟨err, d', hok, hreport, htracks⟩ := shows_decodeByte crc8 h byte
    refine ⟨d', ?_, htracks⟩
    rw [decodeReport, hok]
    exact congrArg (fun r => Except.ok (r, d')) hreport

/-- **The decoder over a whole input** shows the answers of the receiver, and
does not raise. -/
theorem decodeAll_eq {d : PacketDecoder Packet} {ph : Phase UInt8}
    (h : Tracks d ph) (bytes : List UInt8) :
    ∃ d', d.decodeAll crc8 bytes =
        .ok (((hostReceiver crc8 Packet.MAX_DATA_LEN).machine.outputs ph
          bytes).map Wire.report, d') ∧
      Tracks d' ((hostReceiver crc8 Packet.MAX_DATA_LEN).machine.run ph
        bytes) :=
  (simulates crc8).feed_eq h bytes

/-- A packet that is reported is the decoder's. -/
theorem packet_of_report {d : PacketDecoder Packet} {err : ErrorCode}
    {command crc : UInt8} {data : List UInt8}
    (h : d.report err = .packet command data crc) :
    d.packet.cmd = command ∧ d.packet.data = data := by
  rw [report, observe] at h
  split at h
  · cases h
    exact ⟨rfl, rfl⟩
  · cases h

/-- **A decoder that is ready reads a frame** and holds its packet. -/
theorem decodeAll_frame {d : PacketDecoder Packet} {ph : Phase UInt8}
    (h : Tracks d ph) (hready : ph.Ready) (command : UInt8)
    (data : List UInt8) (hroom : data.length + 1 ≤ Packet.MAX_DATA_LEN) :
    ∃ d', d.decodeAll crc8 (frame crc8 command data) =
        .ok (readsFrame crc8 command data, d') ∧
      d'.packet.cmd = command ∧ d'.packet.data = data := by
  obtain ⟨d', hall, _⟩ := decodeAll_eq crc8 h (frame crc8 command data)
  have hreads := ((hostReceiver crc8 Packet.MAX_DATA_LEN).run_frame hready
    command data hroom).2
  rw [show frame crc8 command data = (hostReceiver crc8
    Packet.MAX_DATA_LEN).frame command data from rfl, hreads] at hall
  refine ⟨d', hall.trans ?_, ?_⟩
  · rw [← map_report_reads]
    rfl
  · -- the last byte is the one at which the packet is accepted
    obtain ⟨d₁, hfront, htracks⟩ := decodeAll_eq crc8 h
      (frame crc8 command data).dropLast
    obtain ⟨err, d₂, hbyte, hreport, _⟩ := shows_decodeByte crc8 htracks END
    have hstep : feed (decodeReport crc8) d₁ [END] =
        .ok ([d₂.report err], d₂) := by
      simp only [feed, decodeReport, hbyte]
      rfl
    have hboth := feed_append hfront hstep
    rw [show (frame crc8 command data).dropLast ++ [END] = frame crc8 command
      data from (framing crc8).dropLast_frame_concat command data] at hboth
    have hsame : d' = d₂ := congrArg Prod.snd
      (Except.ok.inj (hall.symm.trans hboth))
    have hlast := (hostReceiver crc8 Packet.MAX_DATA_LEN).step_last_frame
      hready command data hroom
    rw [hsame]
    exact packet_of_report (hreport.trans
      (congrArg (fun a => Wire.report a.2) hlast))

theorem after_eq (pkt : Packet) (front : List UInt8) :
    ∃ d, after crc8 pkt front = .ok d ∧
      Tracks d ((hostReceiver crc8 Packet.MAX_DATA_LEN).machine.run .idle
        front) := by
  obtain ⟨d, hfront, htracks⟩ := decodeAll_eq crc8 (tracks_new pkt) front
  refine ⟨d, ?_, htracks⟩
  rw [after, hfront]
  rfl

theorem decodeAfter_eq (pkt : Packet) (front bytes : List UInt8) :
    decodeAfter crc8 pkt front bytes =
      .ok (((hostReceiver crc8 Packet.MAX_DATA_LEN).machine.outputs
        ((hostReceiver crc8 Packet.MAX_DATA_LEN).machine.run .idle front)
        bytes).map Wire.report) := by
  obtain ⟨d, hafter, htracks⟩ := after_eq crc8 pkt front
  obtain ⟨d', hbytes, _⟩ := decodeAll_eq crc8 htracks bytes
  rw [decodeAfter, hafter]
  simp only [bind, Except.bind, hbytes]
  rfl

/-- Whether an escape is pending after some bytes. -/
theorem escapeAfter_eq (pkt : Packet) (front : List UInt8) :
    escapeAfter crc8 pkt front = .ok ((hostReceiver crc8
      Packet.MAX_DATA_LEN).machine.run .idle front).escaped := by
  obtain ⟨d, hafter, htracks⟩ := after_eq crc8 pkt front
  rw [escapeAfter, hafter, ← htracks.escape_eq]
  rfl

end Runs

end PacketDecoder

end DuinoBus.Py
