import DuinoBus.Cpp.PacketDecoder
import DuinoBus.Py.PacketDecoder

/-!
# The two decoders agree

The device's decoder keeps its data in storage of fixed size and counts, the
host's in a `bytearray` that grows and is sliced.  Both are fed the same
bytes, over packets that hold the same to begin with.

As long as no frame is refused at its closing `END`, they run in lockstep:
`Alike` is the relation between their states, and each state handler keeps
it.  `decoders_agree` is the conclusion about whole streams.  At a refusal
the relation ends, since the two go on from different states.
-/

namespace DuinoBus.Agreement

open DuinoBus.Wire
open DuinoBus.Verified

/-- What a decoder holds after one byte, with the code it returned. -/
structure Held where
  err : ErrorCode
  command : UInt8
  data : List UInt8
  crc : UInt8
  deriving DecidableEq

def Held.ofCpp (err : ErrorCode) (d : Cpp.PacketDecoder) : Held :=
  ⟨err, d.packet.command, d.packet.payload, d.packet.crc⟩

def Held.ofPy (err : ErrorCode) (d : Py.PacketDecoder Py.Packet) : Held :=
  ⟨err, d.packet.cmd, d.packet.data, d.packet.crc⟩

/-- Feed the device's decoder a byte. -/
def cppHeld (crc8 : UInt8 → UInt8 → UInt8) (d : Cpp.PacketDecoder)
    (byte : UInt8) : Except Fault (Held × Cpp.PacketDecoder) := do
  let (err, d) ← d.decodeByte crc8 byte
  return (.ofCpp err d, d)

/-- Feed the host's decoder a byte. -/
def pyHeld (crc8 : UInt8 → UInt8 → UInt8)
    (d : Py.PacketDecoder Py.Packet) (byte : UInt8) :
    Except Fault (Held × Py.PacketDecoder Py.Packet) := do
  let (err, d) ← d.decodeByte crc8 byte
  return (.ofPy err d, d)

theorem cppHeld_ok {crc8 : UInt8 → UInt8 → UInt8} {d d' : Cpp.PacketDecoder}
    {byte : UInt8} {err : ErrorCode}
    (h : d.decodeByte crc8 byte = .ok (err, d')) :
    cppHeld crc8 d byte = .ok (.ofCpp err d', d') := by
  rw [cppHeld, h]
  rfl

theorem pyHeld_ok {crc8 : UInt8 → UInt8 → UInt8}
    {d d' : Py.PacketDecoder Py.Packet} {byte : UInt8} {err : ErrorCode}
    (h : d.decodeByte crc8 byte = .ok (err, d')) :
    pyHeld crc8 d byte = .ok (.ofPy err d', d') := by
  rw [pyHeld, h]
  rfl

/-- A frame was refused at its closing `END`. -/
def Held.Refused (h : Held) : Prop := h.err = .crc ∨ h.err = .tooSmall

/-- A closing `END` was read, and the CRC taken off the data. -/
def Held.Closed (h : Held) : Prop := h.err = .none ∨ h.err = .crc

/-! ## States that are alike -/

/-- The state of the device's decoder under the same name. -/
def deviceState : Py.PacketDecoder.State → Cpp.PacketDecoder.State
  | .idle => .idle
  | .command => .command
  | .data => .data
  | .other => .other

/-- The packets hold the same command and data. -/
def SamePacket (p : Cpp.Packet) (q : Py.Packet) : Prop :=
  p.Holds Py.Packet.MAX_DATA_LEN q.cmd q.data

/-- The decoders are in the same state over packets that hold the same. -/
structure Alike (d : Cpp.PacketDecoder) (e : Py.PacketDecoder Py.Packet) :
    Prop where
  state : d.state = deviceState e.state
  escape : d.escape = e.escape
  packet : SamePacket d.packet e.packet

/-- The outcome of one byte on both sides: the same code and the same packet,
alike states unless the frame was refused, and the same CRC if a closing
`END` was read or the CRCs were the same before. -/
structure Outcome (d d' : Cpp.PacketDecoder)
    (e e' : Py.PacketDecoder Py.Packet) (err : ErrorCode) : Prop where
  packet : SamePacket d'.packet e'.packet
  alike : err ≠ .crc → err ≠ .tooSmall → Alike d' e'
  crc : err = .none ∨ err = .crc ∨ d.packet.crc = e.packet.crc →
    d'.packet.crc = e'.packet.crc

/-- Both sides step, with such an outcome. -/
def Agree (d : Cpp.PacketDecoder) (e : Py.PacketDecoder Py.Packet)
    (r : Except Fault (ErrorCode × Cpp.PacketDecoder))
    (s : Except Fault (ErrorCode × Py.PacketDecoder Py.Packet)) : Prop :=
  ∃ err d' e', r = .ok (err, d') ∧ s = .ok (err, e') ∧ Outcome d d' e e' err

section Step

variable (crc8 : UInt8 → UInt8 → UInt8) {d : Cpp.PacketDecoder}
  {e : Py.PacketDecoder Py.Packet}

/-- A step that keeps the decoders alike and does not touch the CRCs. -/
private theorem agree_of_alike {d' : Cpp.PacketDecoder}
    {e' : Py.PacketDecoder Py.Packet} {err : ErrorCode}
    (h : Alike d' e') (hd : d'.packet.crc = d.packet.crc)
    (he : e'.packet.crc = e.packet.crc) (hnone : err ≠ .none)
    (hcrc : err ≠ .crc) : Agree d e (.ok (err, d')) (.ok (err, e')) := by
  refine ⟨err, d', e', rfl, rfl, h.packet, fun _ _ => h, ?_⟩
  intro hsame
  rw [hd, he]
  rcases hsame with herr | herr | hsame
  · exact absurd herr hnone
  · exact absurd herr hcrc
  · exact hsame

theorem agree_decodeIdle (h : Alike d e) (byte : UInt8) :
    Agree d e (d.decodeIdle byte) (.ok (e.decodeByteIdle byte)) := by
  unfold Cpp.PacketDecoder.decodeIdle Py.PacketDecoder.decodeByteIdle
  by_cases hend : byte = END
  · rw [if_pos hend, if_pos hend]
    have hnext : Alike { d with state := .command }
        { e with state := .command } := ⟨rfl, h.escape, h.packet⟩
    exact agree_of_alike hnext rfl rfl (by decide) (by decide)
  · rw [if_neg hend, if_neg hend]
    exact agree_of_alike h rfl rfl (by decide) (by decide)

theorem agree_decodeCommand (h : Alike d e) (byte : UInt8) :
    Agree d e (d.decodeCommand byte) (.ok (e.decodeByteCommand byte)) := by
  unfold Cpp.PacketDecoder.decodeCommand Py.PacketDecoder.decodeByteCommand
  rw [h.escape]
  by_cases hend : byte = END ∧ e.escape = false
  · rw [if_pos hend, if_pos hend]
    exact agree_of_alike h rfl rfl (by decide) (by decide)
  · rw [if_neg hend, if_neg hend]
    have hset : (d.packet.setCommand byte).setData [] =
        .ok { d.packet.setCommand byte with dataLen := 0 } := rfl
    have hholds : SamePacket { d.packet.setCommand byte with dataLen := 0 }
        ((e.packet.setCommand byte).setData []) :=
      ⟨h.packet.maxDataLen, rfl, Nat.zero_le _, rfl⟩
    rw [hset]
    exact agree_of_alike ⟨rfl, rfl, hholds⟩ rfl rfl (by decide) (by decide)

/-- A byte that is stored, or dropped by both when there are 256. -/
private theorem agree_store (h : Alike d e) (byte : UInt8)
    (hb : ¬ (byte = END ∧ e.escape = false)) :
    Agree d e (d.decodeData crc8 byte) (e.decodeByteData crc8 byte) := by
  have hlen : d.packet.dataLen = e.packet.data.length := h.packet.dataLen
  have hmax : d.packet.maxDataLen = Py.Packet.MAX_DATA_LEN :=
    h.packet.maxDataLen
  rw [Cpp.PacketDecoder.decodeData, Py.PacketDecoder.decodeByteData, h.escape,
    if_neg hb, if_neg hb, hlen, hmax, Py.Packet.getDataLen]
  by_cases hfull : Py.Packet.MAX_DATA_LEN ≤ e.packet.data.length
  · rw [if_pos hfull, if_pos hfull, Cpp.PacketDecoder.dumpIf_ok d.debug
      h.packet]
    exact agree_of_alike ⟨h.state, rfl, h.packet⟩ rfl rfl (by decide)
      (by decide)
  · obtain ⟨q, happend, hq⟩ := h.packet.appendByte byte (by omega)
    have hcrc : q.crc = d.packet.crc := Cpp.Packet.crc_appendByte happend
    rw [if_neg hfull, if_neg hfull, happend]
    exact agree_of_alike ⟨h.state, rfl, hq⟩ hcrc rfl (by decide) (by decide)

/-- A closing `END`: the last stored byte is the CRC on both sides. -/
private theorem agree_close (h : Alike d e) (hescape : e.escape = false) :
    Agree d e (d.decodeData crc8 END) (e.decodeByteData crc8 END) := by
  have hlen : d.packet.dataLen = e.packet.data.length := h.packet.dataLen
  have hclosing : END = END ∧ e.escape = false := ⟨rfl, hescape⟩
  rw [Cpp.PacketDecoder.decodeData, Py.PacketDecoder.decodeByteData, h.escape,
    if_pos hclosing, if_pos hclosing, hlen, Py.Packet.getDataLen]
  rcases List.eq_nil_or_concat e.packet.data with hnil | ⟨body, sum, hdata⟩
  · rw [hnil, List.length_nil, if_pos rfl, if_pos rfl]
    refine ⟨.tooSmall, d, { e with state := .command }, rfl, rfl, h.packet,
      fun _ hne => absurd rfl hne, ?_⟩
    rintro (herr | herr | hsame)
    · cases herr
    · cases herr
    · exact hsame
  · rw [List.concat_eq_append] at hdata
    have hne : e.packet.data.length ≠ 0 := by
      rw [hdata, List.length_append, List.length_singleton]
      omega
    have hp : d.packet.Holds Py.Packet.MAX_DATA_LEN e.packet.cmd
        (body ++ [sum]) := hdata ▸ h.packet
    obtain ⟨q, hextract, hq, hsum⟩ := hp.extractCrc
    rw [if_neg hne, if_neg hne, hextract, Py.Packet.extractCrc_concat hdata]
    simp only [bind, Except.bind, pure, Except.pure, hq.calcCrc crc8,
      Cpp.PacketDecoder.dumpIf_ok d.debug hq]
    by_cases hcrc : sum = checksum crc8 e.packet.cmd body
    · rw [if_pos hcrc, if_pos (show sum = Py.Packet.calcCrc crc8
        ⟨e.packet.cmd, body, sum⟩ from hcrc)]
      exact ⟨.none, _, _, rfl, rfl, hq, fun _ _ => ⟨rfl, rfl, hq⟩,
        fun _ => hsum⟩
    · rw [if_neg hcrc, if_neg (show ¬ sum = Py.Packet.calcCrc crc8
        ⟨e.packet.cmd, body, sum⟩ from hcrc)]
      exact ⟨.crc, _, _, rfl, rfl, hq, fun hne _ => absurd rfl hne,
        fun _ => hsum⟩

/-- The switch on the state. -/
private theorem agree_decodeState (h : Alike d e) (byte : UInt8) :
    Agree d e (d.decodeState crc8 byte) (e.decodeByteState crc8 byte) := by
  have hstate := h.state
  unfold Cpp.PacketDecoder.decodeState Py.PacketDecoder.decodeByteState
  cases he : e.state with
  | idle =>
      rw [hstate, he]
      exact agree_decodeIdle h byte
  | command =>
      rw [hstate, he]
      exact agree_decodeCommand h byte
  | data =>
      rw [hstate, he]
      by_cases hb : byte = END ∧ e.escape = false
      · rw [hb.1]
        exact agree_close crc8 h hb.2
      · exact agree_store crc8 h byte hb
  | other =>
      rw [hstate, he]
      exact agree_of_alike h rfl rfl (by decide) (by decide)

/-- **One byte**: both decoders step, to the same code and packet. -/
theorem agree_decodeByte (h : Alike d e) (byte : UInt8) :
    Agree d e (d.decodeByte crc8 byte) (e.decodeByte crc8 byte) := by
  have hidle : d.state = .idle ↔ e.state = .idle := by
    rw [h.state]
    cases e.state <;> simp [deviceState]
  by_cases hi : e.state = .idle
  · rw [Cpp.PacketDecoder.decodeByte, Py.PacketDecoder.decodeByte,
      if_pos (hidle.mpr hi), if_pos hi]
    exact agree_decodeState crc8 h byte
  · have hi' : d.state ≠ .idle := fun hd => hi (hidle.mp hd)
    cases hescape : e.escape with
    | true =>
        rw [Cpp.PacketDecoder.decodeByte_escaped crc8 byte hi'
            (h.escape.trans hescape),
          Py.PacketDecoder.decodeByte_escaped crc8 byte hi hescape]
        exact agree_decodeState crc8 h (slip.literal byte)
    | false =>
        rw [Cpp.PacketDecoder.decodeByte_bare crc8 byte hi'
            (h.escape.trans hescape),
          Py.PacketDecoder.decodeByte_bare crc8 byte hi hescape]
        by_cases hesc : byte = ESC
        · rw [if_pos hesc, if_pos hesc]
          have hnext : Alike { d with escape := true }
              { e with escape := true } := ⟨h.state, rfl, h.packet⟩
          exact agree_of_alike hnext rfl rfl (by decide) (by decide)
        · rw [if_neg hesc, if_neg hesc]
          exact agree_decodeState crc8 h byte

end Step

/-! ## Whole streams -/

section Runs

variable (crc8 : UInt8 → UInt8 → UInt8)

/-- The states are alike, with the same CRC once a closing `END` was read. -/
def InStep (past : List Held) (d : Cpp.PacketDecoder)
    (e : Py.PacketDecoder Py.Packet) : Prop :=
  Alike d e ∧ ((∃ held ∈ past, held.Closed) → d.packet.crc = e.packet.crc)

/-- The decoders hold the same after the same code, and the same CRC if a
closing `END` was read by then. -/
structure HoldSame (past : List Held) (held held' : Held) : Prop where
  err : held.err = held'.err
  command : held.command = held'.command
  data : held.data = held'.data
  crc : (∃ h ∈ past ++ [held], h.Closed) → held.crc = held'.crc

/-- Up to the first refusal, the two decoders run in lockstep. -/
theorem lockstep :
    Lockstep (cppHeld crc8) (pyHeld crc8) InStep Held.Refused HoldSame where
  step := by
    intro past d e byte h
    obtain ⟨halike, hpast⟩ := h
    obtain ⟨err, d', e', hd, he, hout⟩ := agree_decodeByte crc8 halike byte
    have hsync : (∃ h ∈ past ++ [.ofCpp err d'], h.Closed) →
        d'.packet.crc = e'.packet.crc := by
      rintro ⟨held, hmem, hclosed⟩
      apply hout.crc
      rcases List.mem_append.mp hmem with hmem | hmem
      · exact .inr (.inr (hpast ⟨held, hmem, hclosed⟩))
      · rw [List.mem_singleton.mp hmem] at hclosed
        rcases hclosed with hnone | hcrc
        · exact .inl hnone
        · exact .inr (.inl hcrc)
    refine ⟨.ofCpp err d', d', .ofPy err e', e', cppHeld_ok hd, pyHeld_ok he,
      ⟨rfl, hout.packet.command, hout.packet.payload, hsync⟩, ?_⟩
    intro hgo
    have hcrc : err ≠ .crc := fun herr => hgo (.inl herr)
    have hsmall : err ≠ .tooSmall := fun herr => hgo (.inr herr)
    exact ⟨hout.alike hcrc hsmall, hsync⟩

/-- The device's decoder does not stop on any input. -/
private theorem cppHeld_drives (capacity : Nat) :
    Drives (cppHeld crc8) (deviceReceiver crc8 capacity).machine id
      (Cpp.PacketDecoder.Tracks capacity) (fun _ _ => True) where
  step := by
    intro d ph byte h
    obtain ⟨err, d', hok, _, htracks, _⟩ :=
      Cpp.PacketDecoder.shows_decodeByte crc8 h byte
    exact ⟨.ofCpp err d', d', cppHeld_ok hok, trivial, htracks⟩

/-- Nor does the host's. -/
private theorem pyHeld_drives :
    Drives (pyHeld crc8) (hostReceiver crc8 Py.Packet.MAX_DATA_LEN).machine id
      Py.PacketDecoder.Tracks (fun _ _ => True) where
  step := by
    intro e ph byte h
    obtain ⟨err, e', hok, _, htracks⟩ :=
      Py.PacketDecoder.shows_decodeByte crc8 h byte
    exact ⟨.ofPy err e', e', pyHeld_ok hok, trivial, htracks⟩

/-- **The decoders agree up to the first refusal.**  Fed the same bytes, new
decoders over packets of 256 bytes that hold the same return the same code at
every byte before which neither refused a frame, and hold the same. -/
theorem decoders_agree (packet : Cpp.Packet) (pkt : Py.Packet)
    (hstart : packet.Holds Py.Packet.MAX_DATA_LEN pkt.cmd pkt.data)
    (bytes : List UInt8) :
    ∃ helds d helds' e,
      feed (cppHeld crc8) (.new packet) bytes = .ok (helds, d) ∧
      feed (pyHeld crc8) (.new pkt) bytes = .ok (helds', e) ∧
      helds.length = bytes.length ∧ helds'.length = bytes.length ∧
      ∀ i held held', helds[i]? = some held → helds'[i]? = some held' →
        (∀ h ∈ helds.take i ++ helds'.take i, ¬ h.Refused) →
        HoldSame (helds.take i) held held' := by
  obtain ⟨helds, d, hcpp, hlen, _⟩ := (cppHeld_drives crc8
    packet.maxDataLen).feed_eq (Cpp.PacketDecoder.tracks_new packet) bytes
  obtain ⟨helds', e, hpy, hlen', _⟩ :=
    (pyHeld_drives crc8).feed_eq (Py.PacketDecoder.tracks_new pkt) bytes
  have halike : Alike (.new packet) (.new pkt) := ⟨rfl, rfl, hstart⟩
  have hinStep : InStep [] (.new packet) (.new pkt) :=
    ⟨halike, fun ⟨_, hmem, _⟩ => by cases hmem⟩
  refine ⟨helds, d, helds', e, hcpp, hpy, ?_, ?_, ?_⟩
  · rw [← hlen.length_eq, Transducer.length_outputs, List.length_map]
  · rw [← hlen'.length_eq, Transducer.length_outputs, List.length_map]
  · intro i held held' hi hi' hgo
    exact (lockstep crc8).getElem? hinStep hcpp hpy hi hi'
      (fun h hmem => hgo h (List.mem_append_left _ hmem))

end Runs

/-- New packets hold the same: command 0 and no data. -/
theorem decoders_agree_new :
    ∃ helds d helds' e,
      feed (cppHeld crc8Poly07) (.new (.new (List.replicate 256 0x55) 0x66))
        [ESC, END, 0x01, 0x07, END, END] = .ok (helds, d) ∧
      feed (pyHeld crc8Poly07) (.new (.new 0 []))
        [ESC, END, 0x01, 0x07, END, END] = .ok (helds', e) ∧
      helds.length = 6 ∧ helds'.length = 6 ∧
      ∀ i held held', helds[i]? = some held → helds'[i]? = some held' →
        (∀ h ∈ helds.take i ++ helds'.take i, ¬ h.Refused) →
        HoldSame (helds.take i) held held' :=
  decoders_agree crc8Poly07 (.new (List.replicate 256 0x55) 0x66) (.new 0 [])
    ⟨List.length_replicate, rfl, Nat.zero_le _, rfl⟩ [ESC, END, 0x01, 0x07, END, END]

end DuinoBus.Agreement
