import DuinoBus.Cpp.Packet
import DuinoBus.Verified.Generator

/-!
# The device's encoder

`encodeByte` yields one byte of the frame per call.  Which byte comes next is
spread over the state, the index and the pending escape character;
`Owes` says for each of these what is still to come, and `encodeByte_owes`
that every call pays the first byte of it.  `encode_eq` concludes that, in
whatever state an earlier encoding left the encoder, it writes the frame.

The loop over `encodeByte` ends by `callsLeft_lt`.
-/

namespace DuinoBus.Cpp

open DuinoBus.Wire
open DuinoBus.Verified

/-- The states of the encoder, and any other value `m_state` could have. -/
inductive PacketEncoder.State where
  | idle
  | command
  | data
  | escape
  | other
  deriving DecidableEq, Repr

/-- An encoder, with the packet it points to if any. -/
structure PacketEncoder where
  packet : Option Packet
  state : PacketEncoder.State
  encodeIdx : Nat
  escapeChar : UInt8
  debug : Bool
  deriving DecidableEq

namespace PacketEncoder

/-- A new encoder.  Its escape character is not initialised. -/
def new (escapeChar : UInt8) : PacketEncoder :=
  ⟨none, .idle, 0, escapeChar, false⟩

def setDebug (e : PacketEncoder) (debug : Bool) : PacketEncoder :=
  { e with debug := debug }

section Code

variable (crc8 : UInt8 → UInt8 → UInt8)

/-- Store the CRC in the packet, which is returned, and point to it. -/
def encodeStart (e : PacketEncoder) (packet : Packet) :
    Except Fault (Packet × PacketEncoder) := do
  let packet ← packet.calcAndStoreCrc crc8
  if e.debug then packet.dump
  return (packet, { e with packet := some packet, state := .idle })

/-- The next state and the byte to write instead of `byte`. -/
def handleEscape (e : PacketEncoder) (byte : UInt8) :
    PacketEncoder.State × UInt8 × PacketEncoder :=
  if byte = END then (.escape, ESC, { e with escapeChar := ESC_END })
  else if byte = ESC then (.escape, ESC, { e with escapeChar := ESC_ESC })
  else (.data, byte, e)

/-- `m_state = handleEscape(byte)` and the new index, common to the three
places that write a byte of the packet. -/
def put (e : PacketEncoder) (byte : UInt8) (encodeIdx : Nat) :
    ErrorCode × UInt8 × PacketEncoder :=
  let (state, byte, e) := e.handleEscape byte
  (.notDone, byte, { e with state, encodeIdx })

theorem put_end (e : PacketEncoder) (idx : Nat) :
    e.put END idx = (.notDone, ESC,
      { e with state := .escape, escapeChar := ESC_END, encodeIdx := idx }) := by
  rw [put, handleEscape, if_pos rfl]

theorem put_esc (e : PacketEncoder) (idx : Nat) :
    e.put ESC idx = (.notDone, ESC,
      { e with state := .escape, escapeChar := ESC_ESC, encodeIdx := idx }) := by
  rw [put, handleEscape, if_neg (by decide), if_pos rfl]

theorem put_plain (e : PacketEncoder) {byte : UInt8} (hend : byte ≠ END)
    (hesc : byte ≠ ESC) (idx : Nat) :
    e.put byte idx = (.notDone, byte,
      { e with state := .data, encodeIdx := idx }) := by
  rw [put, handleEscape, if_neg hend, if_neg hesc]

/-- Follow `m_packet`. -/
def getPacket (e : PacketEncoder) : Except Fault Packet :=
  match e.packet with
  | some packet => .ok packet
  | none => .error .nullPointer

/-- `case State::DATA`: the data, then the CRC, then the closing `END`. -/
def encodeData (e : PacketEncoder) :
    Except Fault (ErrorCode × UInt8 × PacketEncoder) := do
  let packet ← e.getPacket
  if e.encodeIdx < packet.dataLen then
    match packet.data[e.encodeIdx]? with
    | some byte => return e.put byte (e.encodeIdx + 1)
    | none => .error .outOfBounds
  else if e.encodeIdx = packet.dataLen then
    let byte ← packet.calcCrc crc8
    return e.put byte (e.encodeIdx + 1)
  else return (.none, END, { e with state := .idle })

/-- `byte` is what the caller's variable held before the call. -/
def encodeByte (e : PacketEncoder) (byte : UInt8) :
    Except Fault (ErrorCode × UInt8 × PacketEncoder) :=
  match e.state with
  | .idle => .ok (.notDone, END, { e with state := .command })
  | .command => do
      let packet ← e.getPacket
      return e.put packet.command 0
  | .data => e.encodeData crc8
  | .escape => .ok (.notDone, e.escapeChar, { e with state := .data })
  | .other => .ok (.badState, byte, e)

/-! ## The loop ends -/

/-- A bound on the calls of `encodeByte` that answer `NOT_DONE`. -/
def callsLeft (e : PacketEncoder) : Nat :=
  let n := match e.packet with
    | some packet => packet.dataLen
    | none => 0
  match e.state with
  | .idle => 2 * n + 6
  | .command => 2 * n + 5
  | .data => 2 * (n + 1 - e.encodeIdx) + 1
  | .escape => 2 * (n + 1 - e.encodeIdx) + 2
  | .other => 0

private theorem getPacket_ok {e : PacketEncoder} {p : Packet}
    (h : e.getPacket = .ok p) : e.packet = some p := by
  unfold getPacket at h
  split at h
  · next packet hp =>
      cases h
      exact hp
  · cases h

/-- Writing a byte of the packet leaves the calls for the rest, and one more
if the byte needs an escape. -/
private theorem callsLeft_put {e : PacketEncoder} {p : Packet}
    (hp : e.packet = some p) (byte : UInt8) (idx : Nat) :
    (e.put byte idx).2.2.callsLeft ≤ 2 * (p.dataLen + 1 - idx) + 2 := by
  by_cases hend : byte = END
  · rw [hend, put_end]
    simp [callsLeft, hp]
  · by_cases hesc : byte = ESC
    · rw [hesc, put_esc]
      simp [callsLeft, hp]
    · rw [put_plain e hend hesc]
      simp [callsLeft, hp]

theorem callsLeft_encodeData {e e' : PacketEncoder} {err : ErrorCode}
    {o : UInt8} (hstate : e.state = .data)
    (h : e.encodeData crc8 = .ok (err, o, e')) (herr : err = .notDone) :
    e'.callsLeft < e.callsLeft := by
  unfold encodeData at h
  cases hget : e.getPacket with
  | error f =>
      rw [hget] at h
      cases h
  | ok p =>
      have hp := getPacket_ok hget
      have hleft : e.callsLeft = 2 * (p.dataLen + 1 - e.encodeIdx) + 1 := by
        simp [callsLeft, hstate, hp]
      simp only [hget, bind, Except.bind, pure, Except.pure] at h
      split at h
      · next hlt =>
          split at h
          · next byte _ =>
              have hput := callsLeft_put hp byte (e.encodeIdx + 1)
              rw [Except.ok.inj h] at hput
              simp only at hput
              omega
          · cases h
      · split at h
        · next heq =>
            split at h
            · cases h
            · next byte _ =>
                have hput := callsLeft_put hp byte (e.encodeIdx + 1)
                rw [Except.ok.inj h] at hput
                simp only at hput
                omega
        · cases h
          cases herr

theorem callsLeft_lt {e e' : PacketEncoder} {byte o : UInt8}
    {err : ErrorCode} (h : e.encodeByte crc8 byte = .ok (err, o, e'))
    (herr : err = .notDone) : e'.callsLeft < e.callsLeft := by
  unfold encodeByte at h
  split at h
  · next hstate =>
      cases h
      simp only [callsLeft, hstate]
      omega
  · next hstate =>
      cases hget : e.getPacket with
      | error f =>
          rw [hget] at h
          cases h
      | ok p =>
          have hp := getPacket_ok hget
          have hput := callsLeft_put hp p.command 0
          simp only [hget, bind, Except.bind, pure, Except.pure] at h
          rw [Except.ok.inj h] at hput
          simp only [callsLeft, hstate, hp] at hput ⊢
          omega
  · next hstate => exact callsLeft_encodeData crc8 hstate h herr
  · next hstate =>
      cases h
      simp only [callsLeft, hstate]
      omega
  · cases h
    cases herr

/-- The encoder with the caller's byte variable, as a generator. -/
def generator : Generator (PacketEncoder × UInt8) UInt8 ErrorCode Fault where
  call s := do
    let (err, byte, e) ← s.1.encodeByte crc8 s.2
    return (err, byte, (e, byte))
  more err := err = .notDone
  left s := s.1.callsLeft
  left_lt := by
    intro s err o s' h hmore
    cases hcall : s.1.encodeByte crc8 s.2 with
    | error f => simp [hcall, bind, Except.bind] at h
    | ok r =>
        simp only [hcall, bind, Except.bind, pure, Except.pure,
          Except.ok.injEq, Prod.mk.injEq] at h
        obtain ⟨herr, _, rfl⟩ := h
        exact callsLeft_lt crc8 hcall (herr.trans (of_decide_eq_true hmore))

/-- A call of the generator is one of `encodeByte`. -/
theorem encodeByte_of_call {s s' : PacketEncoder × UInt8} {err : ErrorCode}
    {o : UInt8} (h : (generator crc8).call s = .ok (err, o, s')) :
    s.1.encodeByte crc8 s.2 = .ok (err, o, s'.1) := by
  change (do let (err, byte, e) ← s.1.encodeByte crc8 s.2
             return (err, byte, (e, byte))) = _ at h
  cases hcall : s.1.encodeByte crc8 s.2 with
  | error f =>
      rw [hcall] at h
      cases h
  | ok r =>
      rw [hcall] at h
      cases h
      rfl

/-- Encoding does not switch debugging. -/
theorem debug_of_encodeByte {e e' : PacketEncoder} {byte o : UInt8}
    {err : ErrorCode} (h : e.encodeByte crc8 byte = .ok (err, o, e')) :
    e'.debug = e.debug := by
  have hput : ∀ b idx, (e.put b idx).2.2.debug = e.debug := by
    intro b idx
    by_cases hend : b = END
    · rw [hend, put_end]
    · by_cases hesc : b = ESC
      · rw [hesc, put_esc]
      · rw [put_plain e hend hesc]
  unfold encodeByte at h
  split at h
  · cases h
    rfl
  · cases hpacket : e.getPacket with
    | error f =>
        rw [hpacket] at h
        cases h
    | ok packet =>
        rw [hpacket] at h
        have hcommand := hput packet.command 0
        rw [Except.ok.inj h] at hcommand
        exact hcommand
  · unfold encodeData at h
    cases hpacket : e.getPacket with
    | error f =>
        rw [hpacket] at h
        cases h
    | ok packet =>
        rw [hpacket] at h
        simp only [bind, Except.bind] at h
        split at h
        · split at h
          · next b _ =>
              have hdata := hput b (e.encodeIdx + 1)
              rw [Except.ok.inj h] at hdata
              exact hdata
          · cases h
        · split at h
          · cases hcrc : packet.calcCrc crc8 with
            | error f =>
                rw [hcrc] at h
                cases h
            | ok crc =>
                rw [hcrc] at h
                have hsum := hput crc (e.encodeIdx + 1)
                rw [Except.ok.inj h] at hsum
                exact hsum
          · cases h
            rfl
  · cases h
    rfl
  · cases h
    rfl

/-- Start an encoding and call `encodeByte` until it no longer answers
`NOT_DONE`: the result, the bytes, the packet with its CRC, and the encoder
after them. -/
def encode (e : PacketEncoder) (packet : Packet) (byte : UInt8) :
    Except Fault (ErrorCode × List UInt8 × Packet × PacketEncoder) := do
  let (packet, e) ← e.encodeStart crc8 packet
  let (err, bytes, s) ← (generator crc8).drain (e, byte)
  return (err, bytes, packet, s.1)

end Code

/-! ## What the encoder owes -/

section Owes

variable (crc8 : UInt8 → UInt8 → UInt8) (cmd : UInt8) (data : List UInt8)

/-- The bytes still to come in the encoding of a command and its data. -/
def Owes (e : PacketEncoder) (out : List UInt8) : Prop :=
  (∃ p capacity, e.packet = some p ∧ p.Holds capacity cmd data) ∧
    match e.state with
    | .idle => out = frame crc8 cmd data
    | .command => out = slip.stuff cmd ++ frameFrom crc8 cmd data 0
    | .data => out = frameFrom crc8 cmd data e.encodeIdx
    | .escape => out = e.escapeChar :: frameFrom crc8 cmd data e.encodeIdx
    | .other => False

variable {cmd data}

/-- A byte of the packet goes out stuffed, in one call or in two. -/
theorem put_owes {e : PacketEncoder}
    (hp : ∃ p capacity, e.packet = some p ∧ p.Holds capacity cmd data)
    (byte : UInt8) (idx : Nat) :
    ∃ o os e', slip.stuff byte ++ frameFrom crc8 cmd data idx = o :: os ∧
      e.put byte idx = (.notDone, o, e') ∧ Owes crc8 cmd data e' os := by
  rcases slip.stuff_cases byte with ⟨hb, h⟩ | ⟨hb, h⟩ | ⟨hfin, hesc, h⟩
  · have hput : e.put byte idx = _ := (congrArg (e.put · idx) hb).trans
      (put_end e idx)
    exact ⟨ESC, ESC_END :: frameFrom crc8 cmd data idx, _, by rw [h]; rfl,
      hput, hp, rfl⟩
  · have hput : e.put byte idx = _ := (congrArg (e.put · idx) hb).trans
      (put_esc e idx)
    exact ⟨ESC, ESC_ESC :: frameFrom crc8 cmd data idx, _, by rw [h]; rfl,
      hput, hp, rfl⟩
  · exact ⟨byte, frameFrom crc8 cmd data idx, _, by rw [h]; rfl,
      put_plain e hfin hesc idx, hp, rfl⟩

/-- `case State::DATA` pays one byte: a data byte, the CRC, or the closing
`END`. -/
theorem encodeData_owes {e : PacketEncoder}
    (hpacket : ∃ p capacity, e.packet = some p ∧ p.Holds capacity cmd data) :
    (frameFrom crc8 cmd data e.encodeIdx = [END] ∧
      e.encodeData crc8 = .ok (.none, END, { e with state := .idle })) ∨
      ∃ o os e', frameFrom crc8 cmd data e.encodeIdx = o :: os ∧
        e.encodeData crc8 = .ok (.notDone, o, e') ∧
        Owes crc8 cmd data e' os := by
  obtain ⟨p, capacity, hp, hholds⟩ := id hpacket
  have hget : e.getPacket = .ok p := by rw [getPacket, hp]
  have hlen : p.dataLen = data.length := hholds.dataLen
  simp only [encodeData, hget, bind, Except.bind, pure, Except.pure, hlen]
  by_cases hlt : e.encodeIdx < data.length
  · obtain ⟨o, os, e', hos, hput, howes⟩ :=
      put_owes crc8 hpacket data[e.encodeIdx] (e.encodeIdx + 1)
    have hbyte : p.data[e.encodeIdx]? = some data[e.encodeIdx] := by
      have hpayload := congrArg (·[e.encodeIdx]?) hholds.payload
      simpa [Packet.payload, hlen, hlt] using hpayload
    refine .inr ⟨o, os, e', ?_, ?_, howes⟩
    · exact (frameFrom_data crc8 cmd data hlt).trans hos
    · rw [if_pos hlt, hbyte]
      exact congrArg _ hput
  · by_cases heq : e.encodeIdx = data.length
    · obtain ⟨o, os, e', hos, hput, howes⟩ :=
        put_owes crc8 hpacket (checksum crc8 cmd data) (e.encodeIdx + 1)
      refine .inr ⟨o, os, e', ?_, ?_, howes⟩
      · rw [heq, frameFrom_crc, ← heq]
        exact hos
      · rw [if_neg hlt, if_pos heq, hholds.calcCrc crc8]
        exact congrArg _ hput
    · refine .inl ⟨frameFrom_end crc8 cmd data (by omega), ?_⟩
      rw [if_neg hlt, if_neg heq]

/-- **One call pays one byte.** -/
theorem encodeByte_owes {e : PacketEncoder} {out : List UInt8}
    (h : Owes crc8 cmd data e out) (byte : UInt8) :
    (∃ o e', out = [o] ∧ e.encodeByte crc8 byte = .ok (.none, o, e')) ∨
      ∃ o os e', out = o :: os ∧
        e.encodeByte crc8 byte = .ok (.notDone, o, e') ∧
        Owes crc8 cmd data e' os := by
  obtain ⟨hpacket, hout⟩ := h
  unfold encodeByte
  cases hstate : e.state with
  | idle =>
      rw [hstate] at hout
      exact .inr ⟨END, _, _, hout.trans (frame_eq crc8 cmd data), rfl,
        hpacket, rfl⟩
  | command =>
      rw [hstate] at hout
      obtain ⟨p, capacity, hp, hholds⟩ := id hpacket
      have hget : e.getPacket = .ok p := by rw [getPacket, hp]
      obtain ⟨o, os, e', hos, hput, howes⟩ := put_owes crc8 hpacket cmd 0
      refine .inr ⟨o, os, e', hout.trans hos, ?_, howes⟩
      simp only [hget, bind, Except.bind, pure, Except.pure, hholds.command,
        hput]
  | data =>
      rw [hstate] at hout
      rcases encodeData_owes crc8 hpacket with
        ⟨hend, hcall⟩ | ⟨o, os, e', hos, hcall, howes⟩
      · exact .inl ⟨END, _, hout.trans hend, hcall⟩
      · exact .inr ⟨o, os, e', hout.trans hos, hcall, howes⟩
  | escape =>
      rw [hstate] at hout
      exact .inr ⟨e.escapeChar, _, _, hout, rfl, hpacket, rfl⟩
  | other =>
      rw [hstate] at hout
      exact hout.elim

theorem pays : (generator crc8).Pays .none
    (fun s out => Owes crc8 cmd data s.1 out) where
  done_last := rfl
  step := by
    intro s out h
    rcases encodeByte_owes crc8 h s.2 with
      ⟨o, e', hout, hcall⟩ | ⟨o, os, e', hout, hcall, howes⟩
    · refine .inl ⟨o, (e', o), hout, ?_⟩
      show (do let (err, byte, e) ← s.1.encodeByte crc8 s.2
               return (err, byte, (e, byte))) = _
      rw [hcall]
      rfl
    · refine .inr ⟨o, os, .notDone, (e', o), hout, ?_, rfl, howes⟩
      show (do let (err, byte, e) ← s.1.encodeByte crc8 s.2
               return (err, byte, (e, byte))) = _
      rw [hcall]
      rfl

end Owes

/-- **The encoder writes the frame**, whatever state it was in. -/
theorem encode_eq (crc8 : UInt8 → UInt8 → UInt8) (e : PacketEncoder)
    {packet : Packet} {capacity : Nat} {cmd : UInt8} {data : List UInt8}
    (h : packet.Holds capacity cmd data) (byte : UInt8) :
    ∃ q e', e.encode crc8 packet byte =
        .ok (.none, frame crc8 cmd data, q, e') ∧
      q.Holds capacity cmd data := by
  obtain ⟨q, hq, hholds, _⟩ := h.calcAndStoreCrc crc8
  have hstart : e.encodeStart crc8 packet =
      .ok (q, { e with packet := some q, state := .idle }) := by
    rw [encodeStart, hq]
    cases hdebug : e.debug with
    | true =>
        simp only [bind, Except.bind, if_true, hholds.dump]
        rfl
    | false => rfl
  have howes : Owes crc8 cmd data { e with packet := some q, state := .idle }
      (frame crc8 cmd data) := ⟨⟨q, capacity, rfl, hholds⟩, rfl⟩
  obtain ⟨s, hs⟩ := (pays crc8).drain_eq
    (s := ({ e with packet := some q, state := .idle }, byte)) howes
  refine ⟨q, s.1, ?_, hholds⟩
  rw [encode, hstart]
  simp only [bind, Except.bind, hs]
  rfl

end PacketEncoder

end DuinoBus.Cpp
