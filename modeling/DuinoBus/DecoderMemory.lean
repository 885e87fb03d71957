import DuinoBus.Cpp.PacketDecoder
import DuinoBus.Verified.Traced

/-!
# What the device's decoder does to memory

The packet of a decoder is storage that nobody initialised.  `tracedByte` is
`decodeByte` with its accesses to that storage: each time the command byte
arrives, each byte that is stored, and each byte that `extractCrc`, `calcCrc`
and `dump` read.  `result_tracedByte` says that it is the same code.

`decoder_invariant` holds after any bytes, errors among them: no assertion
fails, the state is one of the three, no escape is pending in `IDLE`, the data
stay within the packet, every byte is stored inside the storage, and every
byte that is read was stored since the last command byte.
-/

namespace DuinoBus.DecoderMemory

open DuinoBus.Wire
open DuinoBus.Verified
open DuinoBus.Cpp
open DuinoBus.Cpp.PacketDecoder

/-- What a decoder does to its packet: a new command, after which there are no
data, or an access to a byte of the storage. -/
inductive Access where
  | command
  | write (idx : Nat)
  | read (idx : Nat)
  deriving DecidableEq

/-! ## The code with its accesses -/

/-- The reads of the first bytes of the storage. -/
def readsTo (dataLen : Nat) : List Access := (List.range dataLen).map .read

/-- `appendByte` stores one byte. -/
def tracedAppendByte (p : Packet) (byte : UInt8) :
    Traced Access Fault Packet := do
  let q ← .lift (p.appendByte byte)
  .emit (.write p.dataLen)
  return q

/-- `extractCrc` reads the last byte of the data. -/
def tracedExtractCrc (p : Packet) : Traced Access Fault (UInt8 × Packet) := do
  let r ← .lift p.extractCrc
  .emit (.read (p.dataLen - 1))
  return r

/-- `calcCrc` reads all of the data. -/
def tracedCalcCrc (crc8 : UInt8 → UInt8 → UInt8) (p : Packet) :
    Traced Access Fault UInt8 := do
  let crc ← .lift (p.calcCrc crc8)
  .emitAll (readsTo p.dataLen)
  return crc

/-- `dump` reads all of the data. -/
def tracedDumpIf (debug : Bool) (p : Packet) : Traced Access Fault Unit := do
  .lift (dumpIf debug p)
  .emitAll (if debug then readsTo p.dataLen else [])

/-- `case State::COMMAND`. -/
def tracedCommand (d : PacketDecoder) (byte : UInt8) :
    Traced Access Fault (ErrorCode × PacketDecoder) :=
  if byte = END ∧ d.escape = false then return (.notDone, d)
  else do
    let packet ← .lift ((d.packet.setCommand byte).setData [])
    .emit .command
    return (.notDone, { d with escape := false, packet, state := .data })

section Code

variable (crc8 : UInt8 → UInt8 → UInt8)

/-- `case State::DATA`. -/
def tracedData (d : PacketDecoder) (byte : UInt8) :
    Traced Access Fault (ErrorCode × PacketDecoder) :=
  if byte = END ∧ d.escape = false then
    if d.packet.dataLen = 0 then return (.tooSmall, d)
    else do
      let (rcvdCrc, packet) ← tracedExtractCrc d.packet
      let expectedCrc ← tracedCalcCrc crc8 packet
      if rcvdCrc = expectedCrc then
        tracedDumpIf d.debug packet
        return (.none, { d with packet, state := .idle })
      else
        tracedDumpIf d.debug packet
        return (.crc, { d with packet })
  else if d.packet.maxDataLen ≤ d.packet.dataLen then do
    tracedDumpIf d.debug d.packet
    return (.tooMuchData, { d with escape := false })
  else do
    let packet ← tracedAppendByte d.packet byte
    return (.notDone, { d with escape := false, packet })

/-- The switch on the state. -/
def tracedState (d : PacketDecoder) (byte : UInt8) :
    Traced Access Fault (ErrorCode × PacketDecoder) :=
  match d.state with
  | .idle => .lift (d.decodeIdle byte)
  | .command => tracedCommand d byte
  | .data => tracedData crc8 d byte
  | .other => return (.badState, d)

/-- `decodeByte`. -/
def tracedByte (d : PacketDecoder) (byte : UInt8) :
    Traced Access Fault (ErrorCode × PacketDecoder) :=
  if d.state = .idle then tracedState crc8 d byte
  else if d.escape then
    if byte = ESC_END then tracedState crc8 d END
    else if byte = ESC_ESC then tracedState crc8 d ESC
    else tracedState crc8 d byte
  else if byte = ESC then return (.notDone, { d with escape := true })
  else tracedState crc8 d byte

/-- The accesses over a whole input. -/
def accesses (d : PacketDecoder) (bytes : List UInt8) : List Access :=
  (Traced.feed (tracedByte crc8) d bytes).events

end Code

/-! ## It is the same code -/

section Erasure

variable (crc8 : UInt8 → UInt8 → UInt8) (d : PacketDecoder) (byte : UInt8)

theorem result_tracedAppendByte (p : Packet) :
    (tracedAppendByte p byte).result = p.appendByte byte := by
  rw [tracedAppendByte, Traced.result_bind]
  show (p.appendByte byte >>= fun q => .ok q) = _
  cases p.appendByte byte <;> rfl

theorem result_tracedExtractCrc (p : Packet) :
    (tracedExtractCrc p).result = p.extractCrc := by
  rw [tracedExtractCrc, Traced.result_bind]
  show (p.extractCrc >>= fun r => .ok r) = _
  cases p.extractCrc <;> rfl

theorem result_tracedCalcCrc (p : Packet) :
    (tracedCalcCrc crc8 p).result = p.calcCrc crc8 := by
  rw [tracedCalcCrc, Traced.result_bind]
  show (p.calcCrc crc8 >>= fun crc => .ok crc) = _
  cases p.calcCrc crc8 <;> rfl

theorem result_tracedDumpIf (debug : Bool) (p : Packet) :
    (tracedDumpIf debug p).result = dumpIf debug p := by
  rw [tracedDumpIf, Traced.result_bind]
  show (dumpIf debug p >>= fun _ => .ok ()) = _
  cases dumpIf debug p <;> rfl

theorem result_tracedCommand :
    (tracedCommand d byte).result = d.decodeCommand byte := by
  unfold tracedCommand decodeCommand
  split
  · rfl
  · rw [Traced.result_bind]
    rfl

theorem result_tracedData :
    (tracedData crc8 d byte).result = d.decodeData crc8 byte := by
  unfold tracedData decodeData
  split
  · split
    · rfl
    · rw [Traced.result_bind, result_tracedExtractCrc]
      apply bind_congr
      rintro ⟨rcvdCrc, packet⟩
      rw [Traced.result_bind, result_tracedCalcCrc]
      apply bind_congr
      intro expectedCrc
      split
      · rw [Traced.result_bind, result_tracedDumpIf]
        rfl
      · rw [Traced.result_bind, result_tracedDumpIf]
        rfl
  · split
    · rw [Traced.result_bind, result_tracedDumpIf]
      rfl
    · rw [Traced.result_bind, result_tracedAppendByte]
      rfl

theorem result_tracedState :
    (tracedState crc8 d byte).result = d.decodeState crc8 byte := by
  unfold tracedState decodeState
  cases d.state with
  | idle => rfl
  | command => exact result_tracedCommand d byte
  | data => exact result_tracedData crc8 d byte
  | other => rfl

/-- **The same code**, without the accesses. -/
theorem result_tracedByte :
    (tracedByte crc8 d byte).result = d.decodeByte crc8 byte := by
  unfold tracedByte decodeByte
  split
  · exact result_tracedState crc8 d byte
  · split
    · split
      · exact result_tracedState crc8 d END
      · split
        · exact result_tracedState crc8 d ESC
        · exact result_tracedState crc8 d byte
    · split
      · rfl
      · exact result_tracedState crc8 d byte

end Erasure

/-! ## What was written -/

/-- The byte at `idx` was written since the last command. -/
def WrittenSince (past : List Access) (idx : Nat) : Prop :=
  ∃ front since, past = front ++ .command :: since ∧ .command ∉ since ∧
    .write idx ∈ since

/-- What a decoder may do after some accesses: write inside the storage, and
read what was written since the last command. -/
def Allowed (capacity : Nat) (past : List Access) : Access → Prop
  | .command => True
  | .write idx => idx < capacity
  | .read idx => WrittenSince past idx

/-- The first `n` bytes were written since the last command. -/
def Written (past : List Access) (n : Nat) : Prop :=
  ∃ front since, past = front ++ .command :: since ∧ .command ∉ since ∧
    ∀ idx < n, .write idx ∈ since

section Written

variable {past : List Access} {n : Nat}

theorem Written.since (h : Written past n) {idx : Nat} (hidx : idx < n) :
    WrittenSince past idx := by
  obtain ⟨front, since, hpast, hnone, hall⟩ := h
  exact ⟨front, since, hpast, hnone, hall idx hidx⟩

theorem written_command (past : List Access) :
    Written (past ++ [.command]) 0 :=
  ⟨past, [], rfl, List.not_mem_nil, fun idx hidx => absurd hidx (by omega)⟩

theorem Written.mono (h : Written past n) {m : Nat} (hm : m ≤ n) :
    Written past m := by
  obtain ⟨front, since, hpast, hnone, hall⟩ := h
  exact ⟨front, since, hpast, hnone,
    fun idx hidx => hall idx (Nat.lt_of_lt_of_le hidx hm)⟩

/-- More accesses leave them written, up to the next command. -/
theorem Written.append (h : Written past n) {es : List Access}
    (hes : .command ∉ es) : Written (past ++ es) n := by
  obtain ⟨front, since, hpast, hnone, hall⟩ := h
  refine ⟨front, since ++ es, ?_, ?_, ?_⟩
  · rw [hpast, List.append_assoc, List.cons_append]
  · rw [List.mem_append]
    exact not_or.mpr ⟨hnone, hes⟩
  · intro idx hidx
    exact List.mem_append_left es (hall idx hidx)

/-- Writing the byte behind them makes them one more. -/
theorem Written.write (h : Written past n) :
    Written (past ++ [.write n]) (n + 1) := by
  obtain ⟨front, since, hpast, hnone, hall⟩ := h
  refine ⟨front, since ++ [.write n], ?_, ?_, ?_⟩
  · rw [hpast, List.append_assoc, List.cons_append]
  · simpa using hnone
  · intro idx hidx
    rcases Nat.lt_succ_iff_lt_or_eq.mp hidx with hlt | rfl
    · exact List.mem_append_left _ (hall idx hlt)
    · exact List.mem_append_right _ List.mem_cons_self

theorem command_notMem_readsTo (m : Nat) : .command ∉ readsTo m := by
  simp [readsTo]

/-- Reading what was written is allowed. -/
theorem Written.each_read (h : Written past n) (capacity : Nat)
    {es : List Access} (hes : ∀ a ∈ es, ∃ idx < n, a = .read idx) :
    Each (Allowed capacity) past es := by
  induction es generalizing past with
  | nil => exact trivial
  | cons a es ih =>
      obtain ⟨idx, hidx, rfl⟩ := hes a List.mem_cons_self
      refine ⟨h.since hidx, ih (h.append ?_) ?_⟩
      · simp
      · intro b hb
        exact hes b (List.mem_cons_of_mem _ hb)

theorem Written.each_readsTo (h : Written past n) (capacity : Nat) :
    Each (Allowed capacity) past (readsTo n) := by
  apply h.each_read capacity
  intro a ha
  obtain ⟨idx, hidx, rfl⟩ := List.mem_map.mp ha
  exact ⟨idx, List.mem_range.mp hidx, rfl⟩

end Written

/-! ## The invariant -/

/-- The decoder is in order, after some accesses to its packet. -/
structure Sane (capacity : Nat) (past : List Access) (d : PacketDecoder) :
    Prop where
  maxDataLen : d.packet.maxDataLen = capacity
  fits : d.packet.dataLen ≤ capacity
  state : d.state ≠ .other
  idle : d.state = .idle → d.escape = false
  written : d.state = .data → Written past d.packet.dataLen

/-- The code returns with a decoder in order, and without `BAD_STATE`, and
did only what it may. -/
def Good (capacity : Nat) (past : List Access)
    (c : Traced Access Fault (ErrorCode × PacketDecoder)) : Prop :=
  ∃ es err d', c = ⟨es, .ok (err, d')⟩ ∧ Each (Allowed capacity) past es ∧
    err ≠ .badState ∧ Sane capacity (past ++ es) d'

section Step

variable (crc8 : UInt8 → UInt8 → UInt8) {capacity : Nat} {past : List Access}
  {d : PacketDecoder}

/-- The packet of a decoder in order holds what it contains. -/
theorem Sane.holds (h : Sane capacity past d) :
    d.packet.Holds capacity d.packet.command d.packet.payload := by
  have hmax := h.maxDataLen
  have hfits : d.packet.dataLen ≤ d.packet.maxDataLen := by
    rw [hmax]
    exact h.fits
  exact hmax ▸ Packet.holds_self hfits

/-- More accesses, but no command, leave a decoder in order. -/
theorem Sane.append (h : Sane capacity past d) {es : List Access}
    (hes : .command ∉ es) : Sane capacity (past ++ es) d :=
  ⟨h.maxDataLen, h.fits, h.state, h.idle,
    fun hdata => (h.written hdata).append hes⟩

/-- Returning without an access. -/
theorem good_return {err : ErrorCode} (herr : err ≠ .badState)
    (h : Sane capacity past d) : Good capacity past (pure (err, d)) := by
  refine ⟨[], err, d, rfl, trivial, herr, ?_⟩
  rw [List.append_nil]
  exact h

/-- Going on after some accesses. -/
theorem Good.after {α : Type} {c : Traced Access Fault α} {es : List Access}
    {a : α} {f : α → Traced Access Fault (ErrorCode × PacketDecoder)}
    (hc : c = ⟨es, .ok a⟩) (heach : Each (Allowed capacity) past es)
    (h : Good capacity (past ++ es) (f a)) : Good capacity past (c >>= f) := by
  obtain ⟨es', err, d', hf, heach', herr, hsane⟩ := h
  refine ⟨es ++ es', err, d', ?_, heach.append heach', herr, ?_⟩
  · rw [Traced.bind_ok hc, hf]
  · rw [← List.append_assoc]
    exact hsane

/-- A dump before returning. -/
theorem good_dump {err : ErrorCode} (herr : err ≠ .badState) (debug : Bool)
    (h : Sane capacity past d) (hwritten : Written past d.packet.dataLen) :
    Good capacity past (do
      tracedDumpIf debug d.packet
      return (err, d)) := by
  have hdump : tracedDumpIf debug d.packet =
      ⟨if debug then readsTo d.packet.dataLen else [], .ok ()⟩ := by
    rw [tracedDumpIf, dumpIf_ok debug h.holds]
    rfl
  cases debug with
  | true =>
      apply Good.after hdump (hwritten.each_readsTo capacity)
      exact good_return herr (h.append (command_notMem_readsTo _))
  | false =>
      apply Good.after hdump trivial
      exact good_return herr (h.append List.not_mem_nil)

theorem good_idle (h : Sane capacity past d) (hstate : d.state = .idle)
    (byte : UInt8) : Good capacity past (.lift (d.decodeIdle byte)) := by
  have hescape := h.idle hstate
  unfold decodeIdle
  split
  · apply good_return (by decide)
    exact ⟨h.maxDataLen, h.fits, fun hother => (by cases hother),
      fun hidle => (by cases hidle), fun hdata => (by cases hdata)⟩
  · exact good_return (by decide) h

theorem good_command (h : Sane capacity past d) (byte : UInt8) :
    Good capacity past (tracedCommand d byte) := by
  unfold tracedCommand
  split
  · exact good_return (by decide) h
  · obtain ⟨q, hset, hq⟩ :=
      (d.packet.setCommand byte).setData_holds [] (Nat.zero_le _)
    have hlen : q.dataLen = 0 := hq.dataLen
    have hsane : Sane capacity (past ++ [.command])
        { d with escape := false, packet := q, state := .data } := by
      refine ⟨hq.maxDataLen.trans h.maxDataLen, ?_,
        fun hother => (by cases hother), fun hidle => (by cases hidle), ?_⟩
      · show q.dataLen ≤ capacity
        rw [hlen]
        exact Nat.zero_le _
      · intro _
        show Written _ q.dataLen
        rw [hlen]
        exact written_command past
    have hlift : (Traced.lift ((d.packet.setCommand byte).setData []) :
        Traced Access Fault Packet) = ⟨[], .ok q⟩ := by
      rw [hset]
      rfl
    have hcommand : (Traced.emit .command : Traced Access Fault Unit) =
        ⟨[.command], .ok ()⟩ := rfl
    apply Good.after hlift trivial
    rw [List.append_nil]
    apply Good.after hcommand ⟨trivial, trivial⟩
    exact good_return (by decide) hsane

/-- A byte of data. -/
theorem good_store (h : Sane capacity past d) (hstate : d.state = .data)
    (byte : UInt8) (hb : ¬ (byte = END ∧ d.escape = false)) :
    Good capacity past (tracedData crc8 d byte) := by
  have hwritten := h.written hstate
  have hholds := h.holds
  have hdataLen := hholds.dataLen
  rw [tracedData, if_neg hb]
  split
  · exact good_dump (by decide) d.debug
      (d := { d with escape := false })
      ⟨h.maxDataLen, h.fits, h.state, fun _ => rfl, h.written⟩ hwritten
  · next hroom =>
      have hlt : d.packet.dataLen < capacity := by
        rw [← h.maxDataLen]
        exact Nat.not_le.mp hroom
      obtain ⟨q, happend, hq⟩ :=
        hholds.appendByte byte (by rw [← hdataLen]; exact hlt)
      have hlen : q.dataLen = d.packet.dataLen + 1 := by
        rw [hq.dataLen, List.length_append, ← hdataLen]
        rfl
      have hlift : tracedAppendByte d.packet byte =
          ⟨[.write d.packet.dataLen], .ok q⟩ := by
        rw [tracedAppendByte, happend]
        rfl
      have hsane : Sane capacity (past ++ [.write d.packet.dataLen])
          { d with escape := false, packet := q } := by
        refine ⟨hq.maxDataLen, ?_, h.state, fun _ => rfl, ?_⟩
        · show q.dataLen ≤ capacity
          rw [hlen]
          exact hlt
        · intro _
          show Written _ q.dataLen
          rw [hlen]
          exact hwritten.write
      apply Good.after hlift ⟨hlt, trivial⟩
      exact good_return (by decide) hsane

/-- What is read at the end of a frame. -/
theorem reads_close {p : Packet} {cmd sum : UInt8} {bs : List UInt8}
    (h : p.Holds capacity cmd (bs ++ [sum])) :
    ∃ q, tracedExtractCrc p = ⟨[.read bs.length], .ok (sum, q)⟩ ∧
      q.Holds capacity cmd bs ∧
      tracedCalcCrc crc8 q = ⟨readsTo bs.length, .ok (checksum crc8 cmd bs)⟩ :=
    by
  have hlen : p.dataLen = bs.length + 1 := by
    rw [h.dataLen, List.length_append]
    rfl
  obtain ⟨q, hextract, hq, _⟩ := h.extractCrc
  refine ⟨q, ?_, hq, ?_⟩
  · rw [tracedExtractCrc, hextract, hlen]
    rfl
  · rw [tracedCalcCrc, hq.calcCrc crc8, hq.dataLen]
    exact Traced.emitAll_pure _ _

/-- The end of a frame. -/
theorem good_close (h : Sane capacity past d) (hstate : d.state = .data)
    (byte : UInt8) (hb : byte = END ∧ d.escape = false) :
    Good capacity past (tracedData crc8 d byte) := by
  have hwritten := h.written hstate
  have hholds := h.holds
  rw [hholds.dataLen] at hwritten
  rw [tracedData, if_pos hb, hholds.dataLen]
  rcases List.eq_nil_or_concat d.packet.payload with hnil | ⟨bs, sum, hbs⟩
  · rw [hnil, if_pos (by rfl)]
    exact good_return (by decide) h
  · rw [List.concat_eq_append] at hbs
    rw [hbs] at hholds hwritten ⊢
    rw [List.length_append] at hwritten ⊢
    rw [if_neg (by simp)]
    obtain ⟨q, hextract, hq, hcalc⟩ := reads_close crc8 hholds
    -- the CRC and the data before it were all written
    have hcrc : Each (Allowed capacity) past [.read bs.length] :=
      ⟨hwritten.since (Nat.lt_succ_self _), trivial⟩
    have hbelow : Written (past ++ [.read bs.length]) bs.length :=
      (hwritten.mono (Nat.le_succ _)).append (by simp)
    have hafter : Written (past ++ [.read bs.length] ++ readsTo bs.length)
        q.dataLen := by
      rw [hq.dataLen]
      exact hbelow.append (command_notMem_readsTo bs.length)
    apply Good.after hextract hcrc
    apply Good.after hcalc (hbelow.each_readsTo capacity)
    have hfits : q.dataLen ≤ capacity := hq.dataLen ▸ hq.length_le
    split
    · exact good_dump (by decide) d.debug
        (d := { d with packet := q, state := .idle })
        ⟨hq.maxDataLen, hfits, fun hother => (by cases hother), fun _ => hb.2,
          fun hdata => (by cases hdata)⟩ hafter
    · exact good_dump (by decide) d.debug (d := { d with packet := q })
        ⟨hq.maxDataLen, hfits, h.state, h.idle, fun _ => hafter⟩ hafter

theorem good_state (h : Sane capacity past d) (byte : UInt8) :
    Good capacity past (tracedState crc8 d byte) := by
  rw [tracedState]
  cases hstate : d.state with
  | idle => exact good_idle h hstate byte
  | command => exact good_command h byte
  | data =>
      by_cases hb : byte = END ∧ d.escape = false
      · exact good_close crc8 h hstate byte hb
      · exact good_store crc8 h hstate byte hb
  | other => exact absurd hstate h.state

/-- **One byte.** -/
theorem good_byte (h : Sane capacity past d) (byte : UInt8) :
    Good capacity past (tracedByte crc8 d byte) := by
  unfold tracedByte
  split
  · exact good_state crc8 h byte
  · next hne =>
      split
      · split
        · exact good_state crc8 h END
        · split
          · exact good_state crc8 h ESC
          · exact good_state crc8 h byte
      · split
        · apply good_return (by decide)
          exact ⟨h.maxDataLen, h.fits, h.state,
            fun hidle => absurd hidle hne, h.written⟩
        · exact good_state crc8 h byte

/-- The decoder keeps its invariant. -/
theorem keeps (capacity : Nat) :
    Keeps (tracedByte crc8) (Allowed capacity) (Sane capacity)
      (· ≠ ErrorCode.badState) where
  step := by
    intro past d byte h
    exact good_byte crc8 h byte

end Step

/-! ## Whole inputs -/

/-- After some bytes: no assertion has failed, `BAD_STATE` was not returned,
the state is one of the three, no escape is pending in `IDLE`, the data fit,
and the accesses to the storage were all allowed. -/
def InOrder (crc8 : UInt8 → UInt8 → UInt8) (capacity : Nat)
    (d : PacketDecoder) (bytes : List UInt8) : Prop :=
  ∃ codes d', feed (decodeByte crc8) d bytes = .ok (codes, d') ∧
    .badState ∉ codes ∧ d'.state ≠ .other ∧
    (d'.state = .idle → d'.escape = false) ∧
    d'.packet.dataLen ≤ capacity ∧
    Each (Allowed capacity) [] (accesses crc8 d bytes)

/-- A new decoder, on any packet whose data fit. -/
theorem inOrder_of_fits (crc8 : UInt8 → UInt8 → UInt8) {packet : Packet}
    (hfits : packet.dataLen ≤ packet.maxDataLen) (debug : Bool)
    (bytes : List UInt8) :
    InOrder crc8 packet.maxDataLen ((new packet).setDebug debug) bytes := by
  have hnew : Sane packet.maxDataLen [] ((new packet).setDebug debug) :=
    ⟨rfl, hfits, fun hother => (by cases hother), fun _ => rfl,
      fun hdata => (by cases hdata)⟩
  obtain ⟨es, codes, d', hfeed, heach, hcodes, hsane⟩ :=
    (keeps crc8 packet.maxDataLen).feed hnew bytes
  refine ⟨codes, d', ?_, fun hbad => hcodes _ hbad rfl, hsane.state,
    hsane.idle, hsane.fits, ?_⟩
  · have hresult := Traced.result_feed (tracedByte crc8)
      ((new packet).setDebug debug) bytes
    simp only [result_tracedByte] at hresult
    rw [← hresult, hfeed]
  · rw [accesses, hfeed]
    exact heach

/-- **The invariant of the decoder.**  For every storage, empty or not, and
all bytes: a new decoder on a new packet is in order after them. -/
theorem decoder_invariant (crc8 : UInt8 → UInt8 → UInt8)
    (storage : List UInt8) (crc : UInt8) (debug : Bool) (bytes : List UInt8) :
    InOrder crc8 storage.length
      ((new (Packet.new storage crc)).setDebug debug) bytes := by
  have hfits : (Packet.new storage crc).dataLen ≤
      (Packet.new storage crc).maxDataLen := Nat.zero_le _
  exact inOrder_of_fits crc8 hfits debug bytes

end DuinoBus.DecoderMemory
