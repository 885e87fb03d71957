import DuinoBus.Cpp.Bus
import DuinoBus.Verified.ReceiverCanonical

/-!
# Writing what was received

A bus receives bytes until `processByte` answers `NONE`, and then writes the
packet it received.  If the bytes were canonical it writes them again.  If
they were not, it writes the canonical form, which a new decoder accepts as
the same packet.
-/

namespace DuinoBus.Canonical

open DuinoBus.Wire
open DuinoBus.Verified

/-- Feed bytes to `processByte`. -/
def processBytes {ρ : Type} (crc8 : UInt8 → UInt8 → UInt8) :
    Cpp.Bus ρ → List UInt8 → Except Fault (List ErrorCode × Cpp.Bus ρ) :=
  feed fun bus byte => bus.processByte crc8 (some byte)

/-- Every `ESC` is followed by `ESC_END` or `ESC_ESC`. -/
def EscapesPaired : List UInt8 → Prop
  | [] => True
  | b :: bs =>
      (b = ESC → bs.head? = some ESC_END ∨ bs.head? = some ESC_ESC) ∧
        EscapesPaired bs

/-- The bytes start with one `END` and escape only as a writer does. -/
structure IsCanonical (w : List UInt8) : Prop where
  starts : w.head? = some END
  second : ∃ b, w[1]? = some b ∧ b ≠ END
  escapes : EscapesPaired w

theorem escapesPaired_slip {w : List UInt8} (h : EscapesPaired w) :
    slip.EscapesPaired w := by
  induction w with
  | nil => trivial
  | cons b w ih => exact ⟨h.1, ih h.2⟩

section Accepted

variable {ρ : Type} (crc8 : UInt8 → UInt8 → UInt8)

/-- The codes of `processByte` are those of the receiver's answers. -/
theorem processByte_simulates (capacity : Nat) :
    Simulates (fun (bus : Cpp.Bus ρ) byte => bus.processByte crc8 (some byte))
      (deviceReceiver crc8 capacity).machine
      (fun bus ph => bus.decoder.Tracks capacity ph) errorCode where
  step := by
    intro bus ph byte h
    obtain ⟨err, decoder, hprocess, hreport, htracks, _⟩ :=
      bus.processByte_eq crc8 h byte
    have herr : err = errorCode ((deviceReceiver crc8
        capacity).machine.out ph byte) := eq_errorCode hreport
    refine ⟨{ bus with decoder }, ?_, htracks⟩
    rw [hprocess, herr]

/-- `NOT_DONE` up to the last byte and `NONE` there is what a receiver answers
that accepts at the end. -/
private theorem acceptedAtEnd_of_codes {R : Receiver UInt8} {w : List UInt8}
    (h : (R.machine.outputs .idle w).map errorCode =
      List.replicate (w.length - 1) .notDone ++ [.none]) :
    ∃ cmd data sum, R.AcceptedAtEnd w cmd data sum := by
  obtain ⟨front, last, hout, hfront, hlast⟩ := List.map_eq_append_iff.mp h
  have hpending : front = List.replicate (w.length - 1) .pending := by
    apply List.eq_replicate_iff.mpr
    constructor
    · have hlen := congrArg List.length hfront
      simpa using hlen
    · intro v hv
      have hcode : errorCode v ∈ front.map errorCode :=
        List.mem_map_of_mem hv
      rw [hfront] at hcode
      exact errorCode_eq_notDone (List.eq_of_mem_replicate hcode)
  obtain ⟨v, rfl, hv⟩ := List.map_eq_singleton_iff.mp hlast
  obtain ⟨cmd, data, sum, rfl⟩ := errorCode_eq_none hv
  refine ⟨cmd, data, sum, ?_⟩
  rw [Receiver.AcceptedAtEnd, hout, hpending]

/-- **What a bus holds that accepted some bytes at their end**: a packet that
the receiver accepted, with room for its CRC. -/
theorem holds_of_accepted {bus bus' : Cpp.Bus ρ} {capacity : Nat}
    {w : List UInt8} (hidle : bus.decoder.Tracks capacity .idle)
    (h : processBytes crc8 bus w =
      .ok (List.replicate (w.length - 1) .notDone ++ [.none], bus')) :
    ∃ cmd data sum,
      (deviceReceiver crc8 capacity).AcceptedAtEnd w cmd data sum ∧
      bus'.cmdPacket.Holds capacity cmd data ∧
      data.length + 1 ≤ capacity := by
  obtain ⟨bus₁, hwhole, _⟩ :=
    (processByte_simulates crc8 capacity).feed_eq hidle w
  have hcodes := congrArg Prod.fst (Except.ok.inj (hwhole.symm.trans h))
  obtain ⟨cmd, data, sum, haccepted⟩ := acceptedAtEnd_of_codes hcodes
  obtain ⟨front, hw, _, hrun, hsum⟩ := haccepted.split
  refine ⟨cmd, data, sum, haccepted, ?_⟩
  obtain ⟨bus₂, hfront, htracks⟩ :=
    (processByte_simulates crc8 capacity).feed_eq hidle front
  rw [hrun] at htracks
  have hout : ((deviceReceiver crc8 capacity).step
      (.body false cmd (data ++ [sum])) END).2 = .accepted cmd data sum :=
    (Receiver.step_accepted_iff _ _ _ _ _ _).mpr ⟨rfl, rfl, hsum⟩
  obtain ⟨err, decoder, hprocess, _, _, hholds⟩ :=
    bus₂.processByte_eq crc8 htracks END
  have hlast : feed (fun (bus : Cpp.Bus ρ) byte =>
      bus.processByte crc8 (some byte)) bus₂ [END] =
        .ok ([err], { bus₂ with decoder }) := by
    simp only [feed, hprocess]
  have hsplit := feed_append hfront hlast
  rw [show front ++ [END] = w from hw.symm] at hsplit
  have hbus : bus' = { bus₂ with decoder } :=
    congrArg Prod.snd (Except.ok.inj (h.symm.trans hsplit))
  constructor
  · rw [hbus]
    exact hholds cmd data sum hout
  · obtain ⟨_, _, hbody⟩ := htracks
    have hlen := hbody.length_le
    rw [List.length_append, List.length_singleton] at hlen
    exact hlen

end Accepted

/-- **Writing undoes receiving.**  A new bus that accepts some bytes at their
end writes them again if they are canonical, and in any case writes bytes
that a new decoder accepts as the same packet. -/
theorem write_accepted {ρ : Type} (crc8 : UInt8 → UInt8 → UInt8)
    (cmdPacket rspPacket : Cpp.Packet) (escapeChar byte : UInt8)
    (w : List UInt8) (bus : Cpp.Bus ρ)
    (haccept : processBytes crc8 (.new cmdPacket rspPacket escapeChar) w =
      .ok (List.replicate (w.length - 1) .notDone ++ [.none], bus)) :
    ∃ written q bus', bus.writePacket crc8 bus.cmdPacket byte =
        .ok (.none, written, q, bus') ∧
      (IsCanonical w → written = w) ∧
      ∀ fresh : Cpp.Packet, cmdPacket.maxDataLen ≤ fresh.maxDataLen →
        ∃ d, (Cpp.PacketDecoder.new fresh).decodeAll crc8 written =
          .ok (readsFrame crc8 bus.cmdPacket.command bus.cmdPacket.payload,
            d) := by
  obtain ⟨cmd, data, sum, haccepted, hholds, hroom⟩ := holds_of_accepted crc8
    (Cpp.PacketDecoder.tracks_new cmdPacket) haccept
  obtain ⟨q, encoder, hwrite, _⟩ := bus.writePacket_eq crc8 hholds byte
  refine ⟨frame crc8 cmd data, q, _, hwrite, ?_, ?_⟩
  · intro hcanonical
    obtain ⟨b, hsecond, hb⟩ := hcanonical.second
    have hframe := haccepted.eq_frame _ hcanonical.starts
      (fun hend => hb (Option.some.inj (hsecond.symm.trans hend)))
      (escapesPaired_slip hcanonical.escapes)
    exact hframe.symm
  · intro fresh hfresh
    obtain ⟨d, hdecode, _⟩ := Cpp.PacketDecoder.decodeAll_eq crc8
      fresh.maxDataLen (Cpp.PacketDecoder.tracks_new fresh) (frame crc8 cmd data)
    have hread := ((deviceReceiver crc8 fresh.maxDataLen).run_frame
      (.inl rfl) cmd data (Nat.le_trans hroom hfresh)).2
    refine ⟨d, ?_⟩
    rw [hdecode, hholds.command, hholds.payload, ← map_report_reads]
    exact congrArg (fun vs => Except.ok (vs.map report, d)) hread

/-- A bus that received command `01` without data. -/
def pingedBus : Cpp.Bus Unit :=
  ⟨⟨⟨0x01, 1, 0, [0x07], 0x07, rfl⟩, .idle, false, false⟩, .new 0, .new [] 0, []⟩

/-- Its frame, and the same with noise, two opening `END`s, and an escape that
no writer would use. -/
theorem write_accepted_ping :
    (∃ q bus', pingedBus.writePacket crc8Poly07 pingedBus.cmdPacket 0 =
      .ok (.none, [END, 0x01, 0x07, END], q, bus')) ∧
    ∃ written q bus',
      pingedBus.writePacket crc8Poly07 pingedBus.cmdPacket 0 =
        .ok (.none, written, q, bus') ∧
      (IsCanonical [0x55, END, END, ESC, 0x01, 0x07, END] →
        written = [0x55, END, END, ESC, 0x01, 0x07, END]) ∧
      ∀ fresh : Cpp.Packet, 1 ≤ fresh.maxDataLen →
        ∃ d, (Cpp.PacketDecoder.new fresh).decodeAll crc8Poly07 written =
          .ok (readsFrame crc8Poly07 pingedBus.cmdPacket.command
            pingedBus.cmdPacket.payload, d) := by
  have hcanonical : IsCanonical [END, 0x01, 0x07, END] :=
    ⟨rfl, ⟨0x01, rfl, by decide⟩,
      by decide, by decide, by decide, by decide, trivial⟩
  obtain ⟨written, q, bus', hwrite, hsame, _⟩ := write_accepted crc8Poly07
    (.new [0] 0) (.new [] 0) 0 0 [END, 0x01, 0x07, END] pingedBus rfl
  rw [hsame hcanonical] at hwrite
  exact ⟨⟨q, bus', hwrite⟩, write_accepted crc8Poly07 (.new [0] 0) (.new [] 0)
    0 0 [0x55, END, END, ESC, 0x01, 0x07, END] pingedBus rfl⟩

end DuinoBus.Canonical
