import DuinoBus.Crc8
import DuinoBus.Cpp.PacketDecoder
import DuinoBus.Encoding

/-!
# Burst errors on the line

The bytes between the ends of a frame arrive damaged by a burst, framed and
escaped as an encoder would.  The device's decoder answers `CRC` at the
closing `END`, and asks for more up to there.
-/

namespace DuinoBus.Burst

open DuinoBus.Wire
open DuinoBus.Verified
open DuinoBus.Crc8
open DuinoBus.Encoding

/-- Bytes between the ends of a frame, escaped. -/
def enclosed (body : List UInt8) : List UInt8 :=
  END :: (body.flatMap escaped ++ [END])

theorem enclosed_eq (body : List UInt8) : enclosed body = slip.enclose body := by
  rw [enclosed, ← stuffAll_eq_flatMap]
  rfl

/-- **Bursts are caught.**  Any body that a burst made of a command, its data
and their CRC is answered with `CRC` at its closing `END`, and with `NOT_DONE`
before. -/
theorem burst_caught (packet : Cpp.Packet) (command : UInt8)
    (data body : List UInt8)
    (hburst : Burst (command :: (data ++ [checksum crc8Poly07 command data]))
      body)
    (hroom : body.length ≤ packet.maxDataLen + 1) :
    ∃ d, (Cpp.PacketDecoder.new packet).decodeAll crc8Poly07
        (enclosed body) =
      .ok (List.replicate ((enclosed body).length - 1) (.code .notDone) ++
        [.code .crc], d) := by
  obtain ⟨command', data', sum, rfl, hsum⟩ := checksum_ne_of_burst hburst
  have hroom' : data'.length + 1 ≤ packet.maxDataLen := by
    rw [List.length_cons, List.length_append, List.length_singleton] at hroom
    omega
  obtain ⟨d, hdecode, _⟩ := Cpp.PacketDecoder.decodeAll_eq crc8Poly07
    packet.maxDataLen (Cpp.PacketDecoder.tracks_new packet)
    (enclosed (command' :: (data' ++ [sum])))
  refine ⟨d, ?_⟩
  have hclose : ((deviceReceiver crc8Poly07 packet.maxDataLen).close command'
      (data' ++ [sum])).2 = .mismatch := by
    rw [Receiver.close_concat, deviceReceiver_check, if_neg hsum]
  have hread := ((deviceReceiver crc8Poly07 packet.maxDataLen).run_enclose
    (.inl rfl) command' (data' ++ [sum])
    (by rw [List.length_append, List.length_singleton]; exact hroom')).2
  rw [hclose] at hread
  rw [hdecode, enclosed_eq]
  show Except.ok (((deviceReceiver crc8Poly07 packet.maxDataLen).machine.outputs
    _ ((deviceReceiver crc8Poly07 packet.maxDataLen).enclose _)).map report,
      d) = _
  rw [hread, List.map_append, List.map_replicate]
  rfl

/-- The damage `0F 70` to command `01` without data, whose CRC is `07`: it
straddles the command and the CRC. -/
theorem burst_straddling :
    Burst (0x01 :: ([] ++ [checksum crc8Poly07 0x01 []])) [0x0E, 0x77] := by
  refine ⟨rfl, by decide +kernel, 4, ?_⟩
  have hwithin : ∀ i < 16, bitAt (0x01 :: ([] ++
      [checksum crc8Poly07 0x01 []])) i ≠ bitAt [0x0E, 0x77] i →
        4 ≤ i ∧ i < 4 + 8 := by decide +kernel
  intro i hdiffer
  by_cases hi : i < 16
  · exact hwithin i hi hdiffer
  · rw [bitAt_of_le (by exact Nat.le_of_not_lt hi),
      bitAt_of_le (by exact Nat.le_of_not_lt hi)] at hdiffer
    exact absurd rfl hdiffer

theorem burst_caught_straddling :
    ∃ d, (Cpp.PacketDecoder.new (.new [0, 0] 0)).decodeAll crc8Poly07
        (enclosed [0x0E, 0x77]) =
      .ok (List.replicate ((enclosed [0x0E, 0x77]).length - 1)
        (.code .notDone) ++ [.code .crc], d) :=
  burst_caught (.new [0, 0] 0) 0x01 [] [0x0E, 0x77] burst_straddling
    (by decide)

end DuinoBus.Burst
