import DuinoBus.Crc8
import DuinoBus.Cpp.PacketDecoder
import DuinoBus.Verified.OutOfStep

/-!
# The deaf device

A device that refuses a frame stays in its `DATA` state.  From then on it takes
the `END` that opens a frame for the one that closes the frame before, and it
is in step again only when a CRC happens to be right.

`soon_or_never`: a device that is sent one frame again and again, in whatever
state it is at first, reports a packet before its buffer has filled up, or it
never does.  To repeat a command until the device answers is of no use after
that.

`polls_unheard_iff`: commands without data leave the buffer as long as it is.
Whether the device reports anything over them depends on one byte, the CRC of
what it has stored: it does if that is zero, or one of the commands before the
last.
-/

namespace DuinoBus.DeafDevice

open DuinoBus.Wire
open DuinoBus.Verified

/-- The device reports no packet over `bytes`, after any bytes `front`. -/
def Unheard (crc8 : UInt8 → UInt8 → UInt8) (packet : Cpp.Packet)
    (front bytes : List UInt8) : Prop :=
  ∃ reports, Cpp.PacketDecoder.decodeAfter crc8 packet front bytes =
      .ok reports ∧ ∀ command data crc, .packet command data crc ∉ reports

/-! ## The receiver behind the device -/

theorem stays (crc8 : UInt8 → UInt8 → UInt8) (capacity : Nat) :
    (deviceReceiver crc8 capacity).Stays :=
  ⟨fun _ => rfl, fun _ _ => rfl⟩

/-- A packet is reported for an acceptance, and for nothing else. -/
theorem report_eq_packet_iff (v : Verdict UInt8) :
    (∃ command data crc, report v = .packet command data crc) ↔
      v.accepts = true := by
  cases v with
  | accepted command data crc => exact iff_of_true ⟨command, data, crc, rfl⟩ rfl
  | _ =>
      refine iff_of_false ?_ (fun haccepts => by cases haccepts)
      rintro ⟨command, data, crc, hreport⟩
      cases hreport

/-- The device reports no packet exactly if its receiver accepts nothing. -/
theorem unheard_iff (crc8 : UInt8 → UInt8 → UInt8) (packet : Cpp.Packet)
    (front bytes : List UInt8) :
    Unheard crc8 packet front bytes ↔
      Silent ((deviceReceiver crc8 packet.maxDataLen).machine.outputs
        ((deviceReceiver crc8 packet.maxDataLen).machine.run .idle front)
        bytes) := by
  rw [Unheard, Cpp.PacketDecoder.decodeAfter_eq]
  constructor
  · rintro ⟨reports, hreports, hnone⟩ v hv
    cases hreports
    rw [← Bool.not_eq_true, ← report_eq_packet_iff]
    rintro ⟨command, data, crc, hreport⟩
    apply hnone command data crc
    rw [← hreport]
    exact List.mem_map_of_mem hv
  · intro hsilent
    refine ⟨_, rfl, fun command data crc hmem => ?_⟩
    obtain ⟨v, hv, hreport⟩ := List.mem_map.mp hmem
    have haccepts := (report_eq_packet_iff v).mp ⟨_, _, _, hreport⟩
    rw [hsilent v hv] at haccepts
    cases haccepts

/-! ## One frame again and again -/

/-- **Soon or never.**  After any bytes, a device that is sent one frame again
and again reports no packet, however often it is sent, if and only if it
reports none over the first copies, four more than its packet has bytes. -/
theorem soon_or_never (crc8 : UInt8 → UInt8 → UInt8) (packet : Cpp.Packet)
    (front : List UInt8) (f : UInt8 × List UInt8) :
    (∀ n, Unheard crc8 packet front
        (List.replicate n (frame crc8 f.1 f.2)).flatten) ↔
      Unheard crc8 packet front (List.replicate (packet.maxDataLen + 4)
        (frame crc8 f.1 f.2)).flatten := by
  have hstays := stays crc8 packet.maxDataLen
  have hfits : ((deviceReceiver crc8 packet.maxDataLen).machine.run .idle
      front).Fits packet.maxDataLen :=
    hstays.fits_run (fun _ _ _ hphase => by cases hphase) front
  have hcopies := hstays.silent_copies_iff hfits f
  simp only [Receiver.copies, Receiver.frames, List.flatMap_replicate] at hcopies
  simp only [unheard_iff]
  exact hcopies

/-- After a frame that is too small, the device never hears a `PING`. -/
theorem soon_or_never_ping :
    ∀ n, Unheard crc8Poly07 (.new [0, 0] 0) [END, 0x02, END]
      (List.replicate n (frame crc8Poly07 0x01 [])).flatten := by
  apply (soon_or_never crc8Poly07 (.new [0, 0] 0) [END, 0x02, END]
    (0x01, [])).mpr
  rw [unheard_iff, Silent]
  decide +kernel

/-! ## Commands without data -/

/-- In its `DATA` state the decoder is in the phase that its packet shows. -/
private theorem phase_eq_body {capacity : Nat} {d : Cpp.PacketDecoder}
    {ph : Phase UInt8} (h : d.Tracks capacity ph) (hstate : d.state = .data) :
    ph = .body d.escape d.packet.command d.packet.payload := by
  cases ph with
  | idle =>
      rw [h.1] at hstate
      cases hstate
  | command e =>
      rw [h.1] at hstate
      cases hstate
  | body e cmd buf =>
      obtain ⟨_, hescape, hpacket⟩ := h
      rw [hescape, hpacket.command, hpacket.payload]

/-- The check of a frame without data is the check behind some bytes exactly
if the check of those is zero. -/
theorem checksum_concat_eq_iff (command c : UInt8) (data : List UInt8) :
    checksum crc8Poly07 c [] = checksum crc8Poly07 command (data ++ [c]) ↔
      checksum crc8Poly07 command data = 0 := by
  have hconcat : checksum crc8Poly07 command (data ++ [c]) =
      Crc8.shifts 8 (checksum crc8Poly07 command data ^^^ c) := by
    rw [checksum, List.foldl_append]
    rfl
  have hsingle : checksum crc8Poly07 c [] = Crc8.shifts 8 (0 ^^^ c) := rfl
  rw [hconcat, hsingle, Crc8.shifts_xor, Crc8.shifts_xor, UInt8.xor_left_inj]
  constructor
  · intro hshifts
    exact Crc8.shifts_eq_zero hshifts.symm
  · intro hzero
    rw [hzero]

/-- **Out of step, by one byte.**  A device that is inside a frame, with no
escape pending, of which it has stored `data` and one more byte, is sent commands without data.  It
reports no packet if and only if there is no command, or the CRC of what it has
stored before that byte is not zero, and neither that byte nor any of the
commands but the last. -/
theorem polls_unheard_iff (packet : Cpp.Packet) (front : List UInt8)
    {d : Cpp.PacketDecoder}
    (hafter : Cpp.PacketDecoder.after crc8Poly07 packet front = .ok d)
    (hstate : d.state = .data) (hescape : d.escape = false)
    {data : List UInt8} {last : UInt8}
    (hstored : d.packet.payload = data ++ [last])
    (hroom : data.length + 1 < packet.maxDataLen) (commands : List UInt8) :
    Unheard crc8Poly07 packet front
        (commands.flatMap fun c => frame crc8Poly07 c []) ↔
      commands = [] ∨
        checksum crc8Poly07 d.packet.command data ∉
          0 :: (last :: commands).dropLast := by
  obtain ⟨d', hafter', htracks⟩ :=
    Cpp.PacketDecoder.after_eq crc8Poly07 packet front
  rw [hafter] at hafter'
  cases hafter'
  have hphase := phase_eq_body htracks hstate
  rw [hescape, hstored] at hphase
  have hsilent := (stays crc8Poly07 packet.maxDataLen).silent_empties_iff
    d.packet.command last hroom commands
  simp only [deviceReceiver_check, ne_eq, checksum_concat_eq_iff,
    Receiver.frames, List.flatMap_map] at hsilent
  rw [unheard_iff, hphase]
  refine hsilent.trans ?_
  rw [List.mem_cons, not_or]
  cases commands with
  | nil => exact iff_of_true ⟨List.not_mem_nil, List.forall_mem_nil _⟩ (.inl rfl)
  | cons c commands =>
      constructor
      · rintro ⟨hnone, hzero⟩
        exact .inr ⟨hzero c List.mem_cons_self, hnone⟩
      · rintro (hnil | ⟨hzero, hnone⟩)
        · cases hnil
        · exact ⟨hnone, fun _ _ => hzero⟩

/-- After a frame that ends in another byte than its CRC, the device reports
nothing over a `PING`, a `STACK_INFO` and a `HEAP_INFO`. -/
theorem polls_unheard_iff_threePolls :
    Unheard crc8Poly07 (.new [0, 0, 0, 0] 0) [END, 0x02, 0xAA, 0xBB, END]
      ([0x01, 0x04, 0x05].flatMap fun c => frame crc8Poly07 c []) :=
  (polls_unheard_iff (.new [0, 0, 0, 0] 0) [END, 0x02, 0xAA, 0xBB, END]
    (d := ⟨⟨0x02, 4, 1, [0xAA, 0xBB, 0, 0], 0xBB, rfl⟩, .data, false, false⟩)
    (by decide +kernel) rfl rfl (show _ = [] ++ [(0xAA : UInt8)] from rfl)
    (by decide) [0x01, 0x04, 0x05]).mpr (.inr (by decide +kernel))

end DuinoBus.DeafDevice
