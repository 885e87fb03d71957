import DuinoBus.Cpp.Packet

/-!
# The device's decoder

`decodeByte` handles escapes first and then switches on the state.  The
escape flag is not cleared by the escape handling: an `END` that is read with
the flag set is data, and the state that consumes the byte clears it.

`simulates` connects the code to the abstract receiver: from related states
the code steps without a fault, shows what the receiver answers, and ends in
a related state.  `decodeAll_eq` is the same for whole inputs, and the
theorems about the device go through it.
-/

namespace DuinoBus.Cpp

open DuinoBus.Wire
open DuinoBus.Verified

/-- The states of the decoder, and any other value `m_state` could have. -/
inductive PacketDecoder.State where
  | idle
  | command
  | data
  | other
  deriving DecidableEq, Repr

/-- A decoder and the packet it points to, which nothing else writes to. -/
structure PacketDecoder where
  packet : Packet
  state : PacketDecoder.State
  escape : Bool
  debug : Bool
  deriving DecidableEq

namespace PacketDecoder

/-- A decoder over a packet, whatever that packet contains. -/
def new (packet : Packet) : PacketDecoder := ⟨packet, .idle, false, false⟩

def setDebug (d : PacketDecoder) (debug : Bool) : PacketDecoder :=
  { d with debug := debug }

section Code

variable (crc8 : UInt8 → UInt8 → UInt8)

/-- The packet is dumped when debugging. -/
def dumpIf (debug : Bool) (packet : Packet) : Except Fault Unit :=
  if debug then packet.dump else .ok ()

/-- `case State::IDLE`. -/
def decodeIdle (d : PacketDecoder) (byte : UInt8) :
    Except Fault (ErrorCode × PacketDecoder) :=
  if byte = END then .ok (.notDone, { d with state := .command })
  else .ok (.notDone, d)

/-- `case State::COMMAND`. -/
def decodeCommand (d : PacketDecoder) (byte : UInt8) :
    Except Fault (ErrorCode × PacketDecoder) :=
  if byte = END ∧ d.escape = false then .ok (.notDone, d)
  else do
    let packet ← (d.packet.setCommand byte).setData []
    return (.notDone, { d with escape := false, packet, state := .data })

/-- `case State::DATA`. -/
def decodeData (d : PacketDecoder) (byte : UInt8) :
    Except Fault (ErrorCode × PacketDecoder) :=
  if byte = END ∧ d.escape = false then
    -- the two refusals below leave the state at DATA
    if d.packet.dataLen = 0 then .ok (.tooSmall, d)
    else do
      let (rcvdCrc, packet) ← d.packet.extractCrc
      let expectedCrc ← packet.calcCrc crc8
      if rcvdCrc = expectedCrc then
        dumpIf d.debug packet
        return (.none, { d with packet, state := .idle })
      else
        dumpIf d.debug packet
        return (.crc, { d with packet })
  else if d.packet.maxDataLen ≤ d.packet.dataLen then do
    dumpIf d.debug d.packet
    return (.tooMuchData, { d with escape := false })
  else do
    let packet ← d.packet.appendByte byte
    return (.notDone, { d with escape := false, packet })

/-- The switch on the state. -/
def decodeState (d : PacketDecoder) (byte : UInt8) :
    Except Fault (ErrorCode × PacketDecoder) :=
  match d.state with
  | .idle => d.decodeIdle byte
  | .command => d.decodeCommand byte
  | .data => d.decodeData crc8 byte
  | .other => .ok (.badState, d)

def decodeByte (d : PacketDecoder) (byte : UInt8) :
    Except Fault (ErrorCode × PacketDecoder) :=
  if d.state = .idle then d.decodeState crc8 byte
  else if d.escape then
    if byte = ESC_END then d.decodeState crc8 END
    else if byte = ESC_ESC then d.decodeState crc8 ESC
    else d.decodeState crc8 byte
  else if byte = ESC then .ok (.notDone, { d with escape := true })
  else d.decodeState crc8 byte

/-- What a caller sees of a decoder and the code it returned. -/
def report (d : PacketDecoder) (err : ErrorCode) : Report :=
  observe err d.packet.command d.packet.payload d.packet.crc

/-- One byte, with what the caller sees after it. -/
def decodeReport (d : PacketDecoder) (byte : UInt8) :
    Except Fault (Report × PacketDecoder) := do
  let (err, d) ← d.decodeByte crc8 byte
  return (d.report err, d)

/-- Feed bytes one after the other. -/
def decodeAll : PacketDecoder → List UInt8 →
    Except Fault (List Report × PacketDecoder) :=
  feed (decodeReport crc8)

/-- The decoder after some bytes, new at their beginning. -/
def after (packet : Packet) (front : List UInt8) :
    Except Fault PacketDecoder := do
  let (_, d) ← (new packet).decodeAll crc8 front
  return d

/-- The escape flag of that decoder. -/
def escapeAfter (packet : Packet) (front : List UInt8) :
    Except Fault Bool := do
  let d ← after crc8 packet front
  return d.escape

/-- What is seen over some bytes of a decoder that was new before `front`. -/
def decodeAfter (packet : Packet) (front bytes : List UInt8) :
    Except Fault (List Report) := do
  let d ← after crc8 packet front
  let (reports, _) ← d.decodeAll crc8 bytes
  return reports

end Code

/-! ## The receiver behind it -/

/-- The decoder is in a phase of the receiver of the given capacity. -/
def Tracks (capacity : Nat) (d : PacketDecoder) : Phase UInt8 → Prop
  | .idle =>
      d.state = .idle ∧ d.escape = false ∧ d.packet.maxDataLen = capacity
  | .command e =>
      d.state = .command ∧ d.escape = e ∧ d.packet.maxDataLen = capacity
  | .body e cmd buf =>
      d.state = .data ∧ d.escape = e ∧ d.packet.Holds capacity cmd buf

/-- A result shows an answer of the receiver and leaves the decoder in the
phase that comes with it, holding what was accepted. -/
def Shows (capacity : Nat) (r : Except Fault (ErrorCode × PacketDecoder))
    (a : Phase UInt8 × Verdict UInt8) : Prop :=
  ∃ err d', r = .ok (err, d') ∧ d'.report err = Wire.report a.2 ∧
    Tracks capacity d' a.1 ∧
    ∀ cmd data sum, a.2 = .accepted cmd data sum →
      d'.packet.Holds capacity cmd data

theorem Tracks.escape_eq {capacity : Nat} {d : PacketDecoder}
    {ph : Phase UInt8} (h : Tracks capacity d ph) : d.escape = ph.escaped := by
  cases ph with
  | idle => exact h.2.1
  | command e => exact h.2.1
  | body e cmd buf => exact h.2.1

theorem tracks_new (packet : Packet) :
    Tracks packet.maxDataLen (new packet) .idle := ⟨rfl, rfl, rfl⟩

/-- `NOT_DONE` shows that more input is wanted, whatever the packet holds. -/
theorem shows_notDone {capacity : Nat} {d : PacketDecoder}
    {ph : Phase UInt8} (h : Tracks capacity d ph) :
    Shows capacity (.ok (.notDone, d)) (ph, .pending) := by
  refine ⟨.notDone, d, rfl, ?_, h, fun _ _ _ hacc => by cases hacc⟩
  simp [report, observe, Wire.report]

section Step

variable (crc8 : UInt8 → UInt8 → UInt8) {capacity : Nat} {d : PacketDecoder}

theorem dumpIf_ok {p : Packet} {cmd : UInt8} {bs : List UInt8} (debug : Bool)
    (h : p.Holds capacity cmd bs) : dumpIf debug p = .ok () := by
  unfold dumpIf
  split
  · exact h.dump
  · rfl

theorem shows_decodeIdle (h : Tracks capacity d .idle) (byte : UInt8) :
    Shows capacity (d.decodeIdle byte)
      (if byte = END then .command false else .idle, .pending) := by
  obtain ⟨hstate, hescape, hmax⟩ := h
  unfold decodeIdle
  split
  · exact shows_notDone ⟨rfl, hescape, hmax⟩
  · exact shows_notDone ⟨hstate, hescape, hmax⟩

theorem decodeCommand_end (h : Tracks capacity d (.command false)) :
    Shows capacity (d.decodeCommand END) (.command false, .pending) := by
  have hescape : d.escape = false := h.2.1
  rw [decodeCommand, if_pos ⟨rfl, hescape⟩]
  exact shows_notDone h

/-- A byte that is not a bare `END` is the command. -/
theorem shows_decodeCommand {e : Bool} (h : Tracks capacity d (.command e))
    (byte : UInt8) (hb : ¬ (byte = END ∧ e = false)) :
    Shows capacity (d.decodeCommand byte) (.body false byte [], .pending) := by
  obtain ⟨_, hescape, hmax⟩ := h
  obtain ⟨q, hset, hq⟩ :=
    (d.packet.setCommand byte).setData_holds [] (Nat.zero_le _)
  have hq' : q.Holds capacity byte [] := hmax ▸ hq
  rw [decodeCommand, hescape, if_neg hb, hset]
  exact shows_notDone ⟨rfl, rfl, hq'⟩

/-- A byte that is not a bare `END` is stored, or dropped when the buffer is
full. -/
theorem shows_store {e : Bool} {cmd : UInt8} {buf : List UInt8}
    (h : Tracks capacity d (.body e cmd buf)) (byte : UInt8)
    (hb : ¬ (byte = END ∧ e = false)) :
    Shows capacity (d.decodeData crc8 byte)
      ((deviceReceiver crc8 capacity).store cmd buf byte) := by
  obtain ⟨hstate, hescape, hp⟩ := h
  have hdataLen := hp.dataLen
  have hmax := hp.maxDataLen
  rw [decodeData, hescape, if_neg hb, Receiver.store, hmax, hdataLen]
  by_cases hfull : capacity ≤ buf.length
  · rw [if_pos hfull, if_pos (show (deviceReceiver crc8 capacity).capacity ≤
      buf.length from hfull), dumpIf_ok d.debug hp]
    exact ⟨.tooMuchData, _, rfl, by simp [report, observe, Wire.report],
      ⟨hstate, rfl, hp⟩, fun _ _ _ hacc => by cases hacc⟩
  · obtain ⟨q, happend, hq⟩ := hp.appendByte byte (by omega)
    rw [if_neg hfull, if_neg (show ¬ (deviceReceiver crc8 capacity).capacity ≤
      buf.length from hfull), happend]
    exact shows_notDone ⟨hstate, rfl, hq⟩

/-- A bare `END` closes the frame. -/
theorem shows_close {cmd : UInt8} {buf : List UInt8}
    (h : Tracks capacity d (.body false cmd buf)) :
    Shows capacity (d.decodeData crc8 END)
      ((deviceReceiver crc8 capacity).close cmd buf) := by
  obtain ⟨hstate, hescape, hp⟩ := h
  have hdataLen := hp.dataLen
  rw [decodeData, if_pos ⟨rfl, hescape⟩]
  rcases List.eq_nil_or_concat buf with rfl | ⟨body, sum, rfl⟩
  · have hzero : d.packet.dataLen = 0 := hdataLen
    rw [if_pos hzero, Receiver.close_nil]
    exact ⟨.tooSmall, d, rfl, by simp [report, observe, Wire.report],
      ⟨hstate, hescape, hp⟩, fun _ _ _ hacc => by cases hacc⟩
  · rw [List.concat_eq_append] at hp hdataLen ⊢
    have hne : d.packet.dataLen ≠ 0 := by
      rw [hdataLen, List.length_append, List.length_singleton]
      omega
    obtain ⟨q, hextract, hq, hsum⟩ := hp.extractCrc
    rw [if_neg hne, hextract, Receiver.close_concat]
    simp only [bind, Except.bind, pure, Except.pure, hq.calcCrc crc8,
      dumpIf_ok d.debug hq]
    by_cases hcrc : sum = checksum crc8 cmd body
    · rw [if_pos hcrc, if_pos (show sum =
        (deviceReceiver crc8 capacity).check cmd body from hcrc)]
      refine ⟨.none, _, rfl, ?_, ⟨rfl, hescape, hq.maxDataLen⟩, ?_⟩
      · simp [report, observe, Wire.report, hq.command, hq.payload, hsum]
      · intro c data s hacc
        cases hacc
        exact hq
    · rw [if_neg hcrc, if_neg (show ¬ sum =
        (deviceReceiver crc8 capacity).check cmd body from hcrc)]
      exact ⟨.crc, _, rfl, by simp [report, observe, Wire.report],
        ⟨hstate, hescape, hq⟩, fun _ _ _ hacc => by cases hacc⟩

/-- Inside a frame, an escaped byte is switched on as the literal it stands
for. -/
theorem decodeByte_escaped (byte : UInt8) (hstate : d.state ≠ .idle)
    (hescape : d.escape = true) :
    d.decodeByte crc8 byte = d.decodeState crc8 (slip.literal byte) := by
  rw [decodeByte, if_neg hstate, if_pos hescape, Stuffing.literal]
  show _ = d.decodeState crc8
    (if byte = ESC_END then END else if byte = ESC_ESC then ESC else byte)
  split
  · rfl
  · split <;> rfl

/-- Inside a frame, a byte that no escape precedes. -/
theorem decodeByte_bare (byte : UInt8) (hstate : d.state ≠ .idle)
    (hescape : d.escape = false) :
    d.decodeByte crc8 byte =
      if byte = ESC then .ok (.notDone, { d with escape := true })
      else d.decodeState crc8 byte := by
  have hne : ¬ d.escape = true := by
    rw [hescape]
    decide
  rw [decodeByte, if_neg hstate, if_neg hne]

theorem decodeState_command (h : d.state = .command) (byte : UInt8) :
    d.decodeState crc8 byte = d.decodeCommand byte := by
  rw [decodeState, h]

theorem decodeState_data (h : d.state = .data) (byte : UInt8) :
    d.decodeState crc8 byte = d.decodeData crc8 byte := by
  rw [decodeState, h]

/-- **One byte**: the code shows what the receiver answers. -/
theorem shows_decodeByte {ph : Phase UInt8} (h : Tracks capacity d ph)
    (byte : UInt8) :
    Shows capacity (d.decodeByte crc8 byte)
      ((deviceReceiver crc8 capacity).step ph byte) := by
  have hcommand : d.state = .command → d.state ≠ .idle := by
    intro hstate
    rw [hstate]
    decide
  have hdata : d.state = .data → d.state ≠ .idle := by
    intro hstate
    rw [hstate]
    decide
  match ph, h with
  | .idle, h =>
      have hstate : d.state = .idle := h.1
      rw [decodeByte, if_pos hstate, decodeState, hstate]
      exact shows_decodeIdle h byte
  | .command true, h =>
      have hstate : d.state = .command := h.1
      have hescape : d.escape = true := h.2.1
      rw [decodeByte_escaped crc8 byte (hcommand hstate) hescape,
        decodeState_command crc8 hstate]
      exact shows_decodeCommand h _ (fun hb => absurd hb.2 (by decide))
  | .command false, h =>
      have hstate : d.state = .command := h.1
      have hescape : d.escape = false := h.2.1
      rw [decodeByte_bare crc8 byte (hcommand hstate) hescape,
        decodeState_command crc8 hstate, Receiver.step]
      show Shows capacity _ (if byte = ESC then _ else if byte = END then _ else _)
      split
      · exact shows_notDone ⟨hstate, rfl, h.2.2⟩
      · split
        · next hend => exact hend ▸ decodeCommand_end h
        · next hend =>
            exact shows_decodeCommand h byte (fun hb => hend hb.1)
  | .body true cmd buf, h =>
      have hstate : d.state = .data := h.1
      have hescape : d.escape = true := h.2.1
      rw [decodeByte_escaped crc8 byte (hdata hstate) hescape,
        decodeState_data crc8 hstate]
      exact shows_store crc8 h _ (fun hb => absurd hb.2 (by decide))
  | .body false cmd buf, h =>
      have hstate : d.state = .data := h.1
      have hescape : d.escape = false := h.2.1
      rw [decodeByte_bare crc8 byte (hdata hstate) hescape,
        decodeState_data crc8 hstate, Receiver.step]
      show Shows capacity _ (if byte = ESC then _ else if byte = END then _ else _)
      split
      · exact shows_notDone ⟨hstate, rfl, h.2.2⟩
      · split
        · next hend => exact hend ▸ shows_close crc8 h
        · next hend =>
            exact shows_store crc8 h byte (fun hb => hend hb.1)

end Step

/-! ## Whole inputs -/

section Runs

variable (crc8 : UInt8 → UInt8 → UInt8) (capacity : Nat)

/-- The code simulates the receiver. -/
theorem simulates :
    Simulates (decodeReport crc8) (deviceReceiver crc8 capacity).machine
      (Tracks capacity) Wire.report where
  step := by
    intro d ph byte h
    obtain ⟨err, d', hok, hreport, htracks, _⟩ := shows_decodeByte crc8 h byte
    refine ⟨d', ?_, htracks⟩
    rw [decodeReport, hok]
    exact congrArg (fun r => Except.ok (r, d')) hreport

/-- **The decoder over a whole input** shows the answers of the receiver, and
does not fault. -/
theorem decodeAll_eq {d : PacketDecoder} {ph : Phase UInt8}
    (h : Tracks capacity d ph) (bytes : List UInt8) :
    ∃ d', d.decodeAll crc8 bytes =
        .ok (((deviceReceiver crc8 capacity).machine.outputs ph bytes).map
          Wire.report, d') ∧
      Tracks capacity d' ((deviceReceiver crc8 capacity).machine.run ph bytes) :=
  (simulates crc8 capacity).feed_eq h bytes

/-- **A decoder that is ready reads a frame** and holds its packet. -/
theorem decodeAll_frame {d : PacketDecoder} {ph : Phase UInt8}
    (h : Tracks capacity d ph) (hready : ph.Ready) (command : UInt8)
    (data : List UInt8) (hroom : data.length + 1 ≤ capacity) :
    ∃ d', d.decodeAll crc8 (frame crc8 command data) =
        .ok (readsFrame crc8 command data, d') ∧
      d'.packet.Holds capacity command data := by
  obtain ⟨d', hall, _⟩ := decodeAll_eq crc8 capacity h (frame crc8 command data)
  have hreads := ((deviceReceiver crc8 capacity).run_frame hready command data
    hroom).2
  rw [show frame crc8 command data = (deviceReceiver crc8 capacity).frame
    command data from rfl, hreads] at hall
  refine ⟨d', hall.trans ?_, ?_⟩
  · rw [← map_report_reads]
    rfl
  · -- the last byte is the one at which the packet is accepted
    obtain ⟨d₁, hfront, htracks⟩ := decodeAll_eq crc8 capacity h
      (frame crc8 command data).dropLast
    obtain ⟨err, d₂, hbyte, _, _, hholds⟩ := shows_decodeByte crc8 htracks END
    have hstep : feed (decodeReport crc8) d₁ [END] =
        .ok ([d₂.report err], d₂) := by
      simp only [feed, decodeReport, hbyte]
      rfl
    have hboth := feed_append hfront hstep
    rw [show (frame crc8 command data).dropLast ++ [END] = frame crc8 command
      data from (framing crc8).dropLast_frame_concat command data] at hboth
    have hsame : d' = d₂ := congrArg Prod.snd
      (Except.ok.inj (hall.symm.trans hboth))
    rw [hsame]
    apply hholds command data (checksum crc8 command data)
    exact congrArg Prod.snd ((deviceReceiver crc8 capacity).step_last_frame
      hready command data hroom)

theorem after_eq (packet : Packet) (front : List UInt8) :
    ∃ d, after crc8 packet front = .ok d ∧
      Tracks packet.maxDataLen d ((deviceReceiver crc8
        packet.maxDataLen).machine.run .idle front) := by
  obtain ⟨d, hfront, htracks⟩ :=
    decodeAll_eq crc8 packet.maxDataLen (tracks_new packet) front
  refine ⟨d, ?_, htracks⟩
  rw [after, hfront]
  rfl

theorem decodeAfter_eq (packet : Packet) (front bytes : List UInt8) :
    decodeAfter crc8 packet front bytes =
      .ok (((deviceReceiver crc8 packet.maxDataLen).machine.outputs
        ((deviceReceiver crc8 packet.maxDataLen).machine.run .idle front)
        bytes).map Wire.report) := by
  obtain ⟨d, hafter, htracks⟩ := after_eq crc8 packet front
  obtain ⟨d', hbytes, _⟩ :=
    decodeAll_eq crc8 packet.maxDataLen htracks bytes
  rw [decodeAfter, hafter]
  simp only [bind, Except.bind, hbytes]
  rfl

/-- Whether an escape is pending after some bytes. -/
theorem escapeAfter_eq (packet : Packet) (front : List UInt8) :
    escapeAfter crc8 packet front = .ok ((deviceReceiver crc8
      packet.maxDataLen).machine.run .idle front).escaped := by
  obtain ⟨d, hafter, htracks⟩ := after_eq crc8 packet front
  rw [escapeAfter, hafter, ← htracks.escape_eq]
  rfl

end Runs

end PacketDecoder

end DuinoBus.Cpp
