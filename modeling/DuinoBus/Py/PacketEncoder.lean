import DuinoBus.Py.Packet
import DuinoBus.Verified.Generator

/-!
# The host's encoder

`encodeByte` returns one byte of the frame per call.  As for the device,
`Owes` says what is still to come, `encodeByte_owes` that every call pays the
first byte of it, and `encode_eq` that the encoder writes the frame from
whatever state it was in.
-/

namespace DuinoBus.Py

open DuinoBus.Wire
open DuinoBus.Verified

/-- The states of the encoder, and any other value `state` could have. -/
inductive PacketEncoder.State where
  | idle
  | command
  | data
  | escape
  | other
  deriving DecidableEq, Repr

structure PacketEncoder where
  packet : Packet
  state : PacketEncoder.State
  encodeIdx : Nat
  escapeChar : UInt8
  deriving DecidableEq, Repr

namespace PacketEncoder

def new : PacketEncoder := ⟨.new 0 [], .idle, 0, 0⟩

section Code

variable (crc8 : UInt8 → UInt8 → UInt8)

/-- The packet of the encoder is the caller's, so its CRC is stored there. -/
def encodeStart (e : PacketEncoder) (pkt : Packet) : PacketEncoder :=
  { e with packet := pkt.calcAndStoreCrc crc8, state := .idle }

/-- The next state and the byte to write instead of `byte`. -/
def handleEscape (e : PacketEncoder) (byte : UInt8) :
    PacketEncoder.State × UInt8 × PacketEncoder :=
  if byte = END then (.escape, ESC, { e with escapeChar := ESC_END })
  else if byte = ESC then (.escape, ESC, { e with escapeChar := ESC_ESC })
  else (.data, byte, e)

/-- `self.state, byte = self.handle_escape(byte)` and the new index, common to
the three places that write a byte of the packet. -/
def put (e : PacketEncoder) (byte : UInt8) (encodeIdx : Nat) :
    ErrorCode × UInt8 × PacketEncoder :=
  let (state, byte, e) := e.handleEscape byte
  (.notDone, byte, { e with state, encodeIdx })

theorem put_end (e : PacketEncoder) (idx : Nat) :
    e.put END idx = (.notDone, ESC,
      { e with state := .escape, escapeChar := ESC_END, encodeIdx := idx }) := by
  rw [put, handleEscape, if_pos rfl]

theorem put_esc (e : PacketEncoder) (idx : Nat) :
    e.put ESC idx = (.notDone, ESC,
      { e with state := .escape, escapeChar := ESC_ESC, encodeIdx := idx }) := by
  rw [put, handleEscape, if_neg (by decide), if_pos rfl]

theorem put_plain (e : PacketEncoder) {byte : UInt8} (hend : byte ≠ END)
    (hesc : byte ≠ ESC) (idx : Nat) :
    e.put byte idx = (.notDone, byte,
      { e with state := .data, encodeIdx := idx }) := by
  rw [put, handleEscape, if_neg hend, if_neg hesc]

/-- The data, then the CRC, then the closing `END`. -/
def encodeByteData (e : PacketEncoder) :
    Except Fault (ErrorCode × UInt8 × PacketEncoder) :=
  if e.encodeIdx < e.packet.getDataLen then do
    let byte ← e.packet.getDataByte e.encodeIdx
    return e.put byte (e.encodeIdx + 1)
  else if e.encodeIdx = e.packet.getDataLen then
    .ok (e.put (e.packet.calcCrc crc8) (e.encodeIdx + 1))
  else .ok (.none, END, { e with state := .idle })

def encodeByte (e : PacketEncoder) :
    Except Fault (ErrorCode × UInt8 × PacketEncoder) :=
  match e.state with
  | .idle => .ok (.notDone, END, { e with state := .command })
  | .command => .ok (e.put e.packet.cmd 0)
  | .data => e.encodeByteData crc8
  | .escape => .ok (.notDone, e.escapeChar, { e with state := .data })
  | .other => .ok (.badState, 0, e)

/-! ## The loop ends -/

/-- A bound on the calls of `encodeByte` that answer `NOT_DONE`. -/
def callsLeft (e : PacketEncoder) : Nat :=
  match e.state with
  | .idle => 2 * e.packet.getDataLen + 6
  | .command => 2 * e.packet.getDataLen + 5
  | .data => 2 * (e.packet.getDataLen + 1 - e.encodeIdx) + 1
  | .escape => 2 * (e.packet.getDataLen + 1 - e.encodeIdx) + 2
  | .other => 0

/-- Writing a byte of the packet leaves the calls for the rest, and one more
if the byte needs an escape. -/
private theorem callsLeft_put_le (e : PacketEncoder) (byte : UInt8)
    (idx : Nat) :
    (e.put byte idx).2.2.callsLeft ≤
      2 * (e.packet.getDataLen + 1 - idx) + 2 := by
  by_cases hend : byte = END
  · rw [hend, put_end]
    simp [callsLeft]
  · by_cases hesc : byte = ESC
    · rw [hesc, put_esc]
      simp [callsLeft]
    · rw [put_plain e hend hesc]
      simp [callsLeft]

theorem callsLeft_encodeByteData {e e' : PacketEncoder} {err : ErrorCode}
    {o : UInt8} (hstate : e.state = .data)
    (h : e.encodeByteData crc8 = .ok (err, o, e')) (herr : err = .notDone) :
    e'.callsLeft < e.callsLeft := by
  have hleft : e.callsLeft =
      2 * (e.packet.getDataLen + 1 - e.encodeIdx) + 1 := by
    rw [callsLeft, hstate]
  unfold encodeByteData at h
  split at h
  · next hlt =>
      cases hbyte : e.packet.getDataByte e.encodeIdx with
      | error f => simp [hbyte, bind, Except.bind] at h
      | ok byte =>
          have hput := callsLeft_put_le e byte (e.encodeIdx + 1)
          simp only [hbyte, bind, Except.bind, pure, Except.pure] at h
          rw [Except.ok.inj h] at hput
          simp only at hput
          omega
  · split at h
    · next heq =>
        have hput := callsLeft_put_le e (e.packet.calcCrc crc8)
          (e.encodeIdx + 1)
        rw [Except.ok.inj h] at hput
        simp only at hput
        omega
    · cases h
      cases herr

theorem callsLeft_lt {e e' : PacketEncoder} {o : UInt8} {err : ErrorCode}
    (h : e.encodeByte crc8 = .ok (err, o, e')) (herr : err = .notDone) :
    e'.callsLeft < e.callsLeft := by
  unfold encodeByte at h
  split at h
  · next hstate =>
      cases h
      simp only [callsLeft, hstate]
      omega
  · next hstate =>
      have hput := callsLeft_put_le e e.packet.cmd 0
      rw [Except.ok.inj h] at hput
      simp only [callsLeft, hstate] at hput ⊢
      omega
  · next hstate => exact callsLeft_encodeByteData crc8 hstate h herr
  · next hstate =>
      cases h
      simp only [callsLeft, hstate]
      omega
  · cases h
    cases herr

/-- The encoder as a generator. -/
def generator : Generator PacketEncoder UInt8 ErrorCode Fault where
  call e := e.encodeByte crc8
  more err := err = .notDone
  left e := e.callsLeft
  left_lt := by
    intro e err o e' h hmore
    exact callsLeft_lt crc8 h (of_decide_eq_true hmore)

/-- Start an encoding and call `encodeByte` until it no longer answers
`NOT_DONE`: the result, the bytes, and the encoder after them. -/
def encode (e : PacketEncoder) (pkt : Packet) :
    Except Fault (ErrorCode × List UInt8 × PacketEncoder) :=
  (generator crc8).drain (e.encodeStart crc8 pkt)

end Code

/-! ## What the encoder owes -/

section Owes

variable (crc8 : UInt8 → UInt8 → UInt8) (cmd : UInt8) (data : List UInt8)

/-- The bytes still to come in the encoding of a command and its data. -/
def Owes (e : PacketEncoder) (out : List UInt8) : Prop :=
  (e.packet.cmd = cmd ∧ e.packet.data = data) ∧
    match e.state with
    | .idle => out = frame crc8 cmd data
    | .command => out = slip.stuff cmd ++ frameFrom crc8 cmd data 0
    | .data => out = frameFrom crc8 cmd data e.encodeIdx
    | .escape => out = e.escapeChar :: frameFrom crc8 cmd data e.encodeIdx
    | .other => False

variable {cmd data}

/-- A byte of the packet goes out stuffed, in one call or in two. -/
theorem put_owes {e : PacketEncoder}
    (hp : e.packet.cmd = cmd ∧ e.packet.data = data) (byte : UInt8)
    (idx : Nat) :
    ∃ o os e', slip.stuff byte ++ frameFrom crc8 cmd data idx = o :: os ∧
      e.put byte idx = (.notDone, o, e') ∧ Owes crc8 cmd data e' os := by
  rcases slip.stuff_cases byte with ⟨hb, h⟩ | ⟨hb, h⟩ | ⟨hfin, hesc, h⟩
  · have hput : e.put byte idx = _ := (congrArg (e.put · idx) hb).trans
      (put_end e idx)
    exact ⟨ESC, ESC_END :: frameFrom crc8 cmd data idx, _, by rw [h]; rfl,
      hput, hp, rfl⟩
  · have hput : e.put byte idx = _ := (congrArg (e.put · idx) hb).trans
      (put_esc e idx)
    exact ⟨ESC, ESC_ESC :: frameFrom crc8 cmd data idx, _, by rw [h]; rfl,
      hput, hp, rfl⟩
  · exact ⟨byte, frameFrom crc8 cmd data idx, _, by rw [h]; rfl,
      put_plain e hfin hesc idx, hp, rfl⟩

theorem encodeByteData_owes {e : PacketEncoder}
    (hp : e.packet.cmd = cmd ∧ e.packet.data = data) :
    (frameFrom crc8 cmd data e.encodeIdx = [END] ∧
      e.encodeByteData crc8 = .ok (.none, END, { e with state := .idle })) ∨
      ∃ o os e', frameFrom crc8 cmd data e.encodeIdx = o :: os ∧
        e.encodeByteData crc8 = .ok (.notDone, o, e') ∧
        Owes crc8 cmd data e' os := by
  have hlen : e.packet.getDataLen = data.length := congrArg List.length hp.2
  rw [encodeByteData, hlen]
  by_cases hlt : e.encodeIdx < data.length
  · obtain ⟨o, os, e', hos, hput, howes⟩ :=
      put_owes crc8 hp data[e.encodeIdx] (e.encodeIdx + 1)
    have hbyte : e.packet.getDataByte e.encodeIdx = .ok data[e.encodeIdx] := by
      rw [Packet.getDataByte, hp.2, List.getElem?_eq_getElem hlt]
    refine .inr ⟨o, os, e', ?_, ?_, howes⟩
    · exact (frameFrom_data crc8 cmd data hlt).trans hos
    · rw [if_pos hlt, hbyte]
      exact congrArg Except.ok hput
  · by_cases heq : e.encodeIdx = data.length
    · obtain ⟨o, os, e', hos, hput, howes⟩ :=
        put_owes crc8 hp (checksum crc8 cmd data) (e.encodeIdx + 1)
      refine .inr ⟨o, os, e', ?_, ?_, howes⟩
      · rw [heq, frameFrom_crc, ← heq]
        exact hos
      · rw [if_neg hlt, if_pos heq, Packet.calcCrc_eq, hp.1, hp.2]
        exact congrArg Except.ok hput
    · refine .inl ⟨frameFrom_end crc8 cmd data (by omega), ?_⟩
      rw [if_neg hlt, if_neg heq]

/-- **One call pays one byte.** -/
theorem encodeByte_owes {e : PacketEncoder} {out : List UInt8}
    (h : Owes crc8 cmd data e out) :
    (∃ o e', out = [o] ∧ e.encodeByte crc8 = .ok (.none, o, e')) ∨
      ∃ o os e', out = o :: os ∧ e.encodeByte crc8 = .ok (.notDone, o, e') ∧
        Owes crc8 cmd data e' os := by
  obtain ⟨hp, hout⟩ := h
  unfold encodeByte
  cases hstate : e.state with
  | idle =>
      rw [hstate] at hout
      exact .inr ⟨END, _, _, hout.trans (frame_eq crc8 cmd data), rfl, hp, rfl⟩
  | command =>
      rw [hstate] at hout
      obtain ⟨o, os, e', hos, hput, howes⟩ := put_owes crc8 hp cmd 0
      refine .inr ⟨o, os, e', hout.trans hos, ?_, howes⟩
      simp only [hp.1, hput]
  | data =>
      rw [hstate] at hout
      rcases encodeByteData_owes crc8 hp with
        ⟨hend, hcall⟩ | ⟨o, os, e', hos, hcall, howes⟩
      · exact .inl ⟨END, _, hout.trans hend, hcall⟩
      · exact .inr ⟨o, os, e', hout.trans hos, hcall, howes⟩
  | escape =>
      rw [hstate] at hout
      exact .inr ⟨e.escapeChar, _, _, hout, rfl, hp, rfl⟩
  | other =>
      rw [hstate] at hout
      exact hout.elim

theorem pays : (generator crc8).Pays .none (Owes crc8 cmd data) where
  done_last := rfl
  step := by
    intro e out h
    rcases encodeByte_owes crc8 h with
      ⟨o, e', hout, hcall⟩ | ⟨o, os, e', hout, hcall, howes⟩
    · exact .inl ⟨o, e', hout, hcall⟩
    · exact .inr ⟨o, os, .notDone, e', hout, hcall, rfl, howes⟩

end Owes

/-- Starting an encoding owes the frame, whatever state the encoder was in. -/
theorem owes_encodeStart (crc8 : UInt8 → UInt8 → UInt8) (e : PacketEncoder)
    (pkt : Packet) :
    Owes crc8 pkt.cmd pkt.data (e.encodeStart crc8 pkt)
      (frame crc8 pkt.cmd pkt.data) := ⟨⟨rfl, rfl⟩, rfl⟩

/-- **The encoder writes the frame**, whatever state it was in. -/
theorem encode_eq (crc8 : UInt8 → UInt8 → UInt8) (e : PacketEncoder)
    (pkt : Packet) :
    ∃ e', e.encode crc8 pkt = .ok (.none, frame crc8 pkt.cmd pkt.data, e') :=
  (pays crc8).drain_eq (owes_encodeStart crc8 e pkt)

end PacketEncoder

end DuinoBus.Py
