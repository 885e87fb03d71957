import DuinoBus.Cpp.BusLog

/-!
# Log messages

`do_log` fills the log packet from a callback that `vStrXPrintf` calls for one
character after the other, and then patches the length of the text, cast to a
byte.  Whether `vStrXPrintf` goes on when the callback has no room is not known
here; `fillLogWith_eq` says that it makes no difference.

`writesMessage_iff` says that the packet that is written is well formed if and
only if at most 254 characters are stored.
-/

namespace DuinoBus.LogMessages

open DuinoBus.Wire
open DuinoBus.Verified
open DuinoBus.Cpp
open DuinoBus.Cpp.LogBus

/-! ## The callback -/

/-- `vStrXPrintf`, from the formatted characters on.  When the callback has
stored nothing, it stops, or carries on with the rest of the text. -/
def vStrXPrintf {π : Type} (outFunc : π → UInt8 → Except Fault (Nat × π))
    (carryOn : List UInt8 → Bool) : π → List UInt8 → Except Fault π
  | outParam, [] => .ok outParam
  | outParam, ch :: text => do
      let (n, outParam) ← outFunc outParam ch
      if n = 0 ∧ carryOn text = false then return outParam
      vStrXPrintf outFunc carryOn outParam text

/-- `log_char_to_packet` with its result. -/
def logChar (param : Packet × Nat) (ch : UInt8) :
    Except Fault (Nat × Packet × Nat) :=
  if 1 < param.1.getSpaceRemaining then do
    let pkt ← param.1.appendByte ch
    return (1, pkt, param.2 + 1)
  else .ok (0, param)

/-- What `do_log` makes of the log packet. -/
def fillLogWith (carryOn : List UInt8 → Bool) (log : Packet) (level : UInt8)
    (text : List UInt8) : Except Fault Packet := do
  let log ← (log.setCommand LOG).setData []
  let log ← log.appendByte level
  let (strLen, log) := log.getWriteData 1
  let (log, bytesWritten) ← vStrXPrintf logChar carryOn (log, 0) text
  let log ← log.appendByte 0
  return log.write strLen (UInt8.ofNat (bytesWritten + 1))

/-- Without room, no character is stored. -/
private theorem foldlM_full {param : Packet × Nat}
    (hfull : ¬ 1 < param.1.getSpaceRemaining) (text : List UInt8) :
    text.foldlM logCharToPacket param = .ok param := by
  induction text with
  | nil => rfl
  | cons ch text ih =>
      rw [List.foldlM_cons, logCharToPacket, if_neg hfull]
      exact ih

/-- The characters that are stored do not depend on what `vStrXPrintf` does
without room. -/
theorem vStrXPrintf_logChar (carryOn : List UInt8 → Bool)
    (param : Packet × Nat) (text : List UInt8) :
    vStrXPrintf logChar carryOn param text =
      text.foldlM logCharToPacket param := by
  induction text generalizing param with
  | nil => rfl
  | cons ch text ih =>
      rw [vStrXPrintf, List.foldlM_cons, logChar, logCharToPacket]
      by_cases hroom : 1 < param.1.getSpaceRemaining
      · rw [if_pos hroom, if_pos hroom]
        cases happend : param.1.appendByte ch with
        | error e => rfl
        | ok pkt => exact ih (pkt, param.2 + 1)
      · rw [if_neg hroom, if_neg hroom]
        cases hgo : carryOn text with
        | true =>
            simp only [bind, Except.bind, Bool.true_eq_false, and_false,
              if_false]
            exact ih param
        | false =>
            have hrest := foldlM_full hroom text
            simp only [bind, Except.bind, true_and, if_true, hrest]
            rfl

theorem fillLogWith_eq (carryOn : List UInt8 → Bool) (log : Packet)
    (level : UInt8) (text : List UInt8) :
    fillLogWith carryOn log level text = fillLog log level text := by
  simp only [fillLogWith, fillLog, vStrXPrintf_logChar]

/-! ## The message -/

/-- `do_log`, with `call` for `writePacket`. -/
def doLogWith (carryOn : List UInt8 → Bool)
    (call : LogBus × PacketPtr →
      Except (Stop Fault) (ErrorCode × List UInt8 × LogBus))
    (bus : LogBus) (level : UInt8) (text : List UInt8) :
    Except (Stop Fault) (List UInt8 × LogBus) :=
  match bus.logPacket with
  | none => .ok ([], bus)
  | some log => do
      let packet ← Stop.lift (fillLogWith carryOn (bus.store log) level text)
      let (_, bytes, bus) ← call (bus.setPacket log packet, log)
      return (bytes, bus)

theorem doLogWith_eq (carryOn : List UInt8 → Bool)
    (call : LogBus × PacketPtr →
      Except (Stop Fault) (ErrorCode × List UInt8 × LogBus))
    (bus : LogBus) (level : UInt8) (text : List UInt8) :
    doLogWith carryOn call bus level text = doLog call bus level text := by
  cases hlog : bus.logPacket with
  | none => simp only [doLogWith, doLog, hlog]
  | some log => simp only [doLogWith, doLog, hlog, fillLogWith_eq]

/-- The data of a log packet: the level, the length byte, the text as far as
there is room for it, and a null. -/
def message (capacity : Nat) (level strLen : UInt8) (text : List UInt8) :
    List UInt8 := level :: strLen :: (logged capacity text ++ [0])

/-- `do_log` writes the log packet, and nothing else, with a message whose
length byte is the number of the bytes that follow it.  On a bus that does not
dump what it encodes, its frame is what goes out. -/
def WritesMessage (carryOn : List UInt8 → Bool) (bus : LogBus)
    (log : PacketPtr) (level : UInt8) (text : List UInt8) : Prop :=
  ∃ q strLen,
    q.Holds (bus.store log).maxDataLen LOG
      (message (bus.store log).maxDataLen level strLen text) ∧
    strLen.toNat = (logged (bus.store log).maxDataLen text ++ [0]).length ∧
    (∀ call, doLogWith carryOn call bus level text = do
      let (_, bytes, bus) ← call (bus.setPacket log q, log)
      return (bytes, bus)) ∧
    (bus.encoder.debug = false → ∀ crc8 lib call byte, ∃ bus',
      doLogWith carryOn (writePacket crc8 lib call byte) bus level text =
        .ok (frame crc8 LOG
          (message (bus.store log).maxDataLen level strLen text), bus'))

section Message

variable {bus : LogBus} {log : PacketPtr}

/-- The log packet that is written. -/
private theorem doLogWith_call (carryOn : List UInt8 → Bool)
    (hlog : bus.logPacket = some log) (hroom : 3 ≤ (bus.store log).maxDataLen)
    (level : UInt8) (text : List UInt8) :
    ∃ q : Packet, q.Holds (bus.store log).maxDataLen LOG
        (message (bus.store log).maxDataLen level
          (UInt8.ofNat ((logged (bus.store log).maxDataLen text).length + 1))
          text) ∧
      ∀ call, doLogWith carryOn call bus level text = do
        let (_, bytes, bus) ← call (bus.setPacket log q, log)
        return (bytes, bus) := by
  obtain ⟨q, hfill, hq⟩ := fillLog_eq (bus.store log) level text hroom
  refine ⟨q, hq, fun call => ?_⟩
  rw [doLogWith, hlog]
  simp only [fillLogWith_eq, hfill, Stop.lift, bind, Except.bind]

/-- The length byte of a message that is written well formed counts at most
255 bytes. -/
private theorem length_of_writesMessage {carryOn : List UInt8 → Bool}
    (hlog : bus.logPacket = some log) (hroom : 3 ≤ (bus.store log).maxDataLen)
    {level : UInt8} {text : List UInt8}
    (h : WritesMessage carryOn bus log level text) :
    min text.length ((bus.store log).maxDataLen - 3) ≤ 254 := by
  obtain ⟨q, strLen, hq, hcount, hcall, _⟩ := h
  obtain ⟨q₀, hq₀, hcall₀⟩ := doLogWith_call carryOn hlog hroom level text
  -- a `writePacket` that shows the data it is called for
  have hshown := (hcall fun arg =>
    .ok (.none, (arg.1.store arg.2).payload, bus)).symm.trans (hcall₀ _)
  simp only [bind, Except.bind, pure, Except.pure, store_setPacket_self,
    hq.payload, hq₀.payload] at hshown
  have hdata := congrArg Prod.fst (Except.ok.inj hshown)
  injection hdata with _ hdata
  injection hdata with hbyte _
  rw [hbyte, UInt8.toNat_ofNat', List.length_append, List.length_singleton,
    logged, List.length_take] at hcount
  omega

/-- **When log messages are well formed.**  For every log packet with room for
three bytes, every level and every text: `do_log` writes a well-formed message
if and only if no more than 254 characters of the text are stored. -/
theorem writesMessage_iff (carryOn : List UInt8 → Bool)
    (hlog : bus.logPacket = some log) (hroom : 3 ≤ (bus.store log).maxDataLen)
    (level : UInt8) (text : List UInt8) :
    WritesMessage carryOn bus log level text ↔
      min text.length ((bus.store log).maxDataLen - 3) ≤ 254 := by
  constructor
  · intro hwrites
    exact length_of_writesMessage hlog hroom hwrites
  · intro hlen
    obtain ⟨q, hq, hcall⟩ := doLogWith_call carryOn hlog hroom level text
    refine ⟨q, _, hq, ?_, hcall, ?_⟩
    · rw [List.length_append, List.length_singleton]
      apply UInt8.toNat_ofNat_of_lt'
      rw [logged, List.length_take]
      show min _ _ + 1 < 256
      omega
    · intro hquiet crc8 lib call byte
      have hstored : ((bus.setPacket log q).store log).Holds
          (bus.store log).maxDataLen LOG
          (message (bus.store log).maxDataLen level
            (UInt8.ofNat ((logged (bus.store log).maxDataLen text).length + 1))
            text) := by
        rw [store_setPacket_self]
        exact hq
      obtain ⟨bus', hwrite⟩ :=
        writePacket_quiet crc8 lib hstored (.inl hquiet) byte
      refine ⟨bus', ?_⟩
      rw [hcall, hwrite call]
      rfl

end Message

/-- A bus with an empty log packet of this capacity. -/
def busOf (capacity : Nat) : LogBus where
  store _ := Packet.new (List.replicate capacity 0) 0
  packet := none
  encoder := .new 0
  logPacket := some 0
  handlers := []

theorem writesMessage_iff_hello :
    WritesMessage (fun _ => false) (busOf 6) 0 4 [0x48, 0x65, 0x6C, 0x6C, 0x6F]
      ↔ min [(0x48 : UInt8), 0x65, 0x6C, 0x6C, 0x6F].length
        (((busOf 6).store 0).maxDataLen - 3) ≤ 254 :=
  @writesMessage_iff (busOf 6) 0 (fun _ => false) rfl (by decide) 4
    [0x48, 0x65, 0x6C, 0x6C, 0x6F]

/-- With 255 characters, the length byte is 0. -/
theorem writesMessage_fails :
    ¬ ∀ (carryOn : List UInt8 → Bool) (bus : LogBus) (log : PacketPtr),
      bus.logPacket = some log → 3 ≤ (bus.store log).maxDataLen →
        ∀ level text, 0 ∉ text → WritesMessage carryOn bus log level text := by
  intro h
  have hcapacity : ((busOf 258).store 0).maxDataLen = 258 :=
    List.length_replicate
  have hroom : 3 ≤ ((busOf 258).store 0).maxDataLen := by
    rw [hcapacity]
    decide
  have hnull : (0 : UInt8) ∉ List.replicate 255 (0x41 : UInt8) := by
    rw [List.mem_replicate]
    exact fun hmem => absurd hmem.2 (by decide)
  have hwrites := h (fun _ => true) (busOf 258) 0 rfl hroom 4
    (List.replicate 255 0x41) hnull
  have hlen := @length_of_writesMessage (busOf 258) 0 _ rfl hroom _ _ hwrites
  rw [hcapacity, List.length_replicate] at hlen
  exact absurd hlen (by decide)

end DuinoBus.LogMessages
