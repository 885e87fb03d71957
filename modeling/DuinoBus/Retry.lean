import DuinoBus.Py.Bus
import DuinoBus.Verified.ReceiverRetry

/-!
# Writing a packet again

`write_packet` gives up at the first byte that is not accepted, and the peer
has then read the beginning of a frame.  `retried_iff` says for which
beginnings the same packet can be written again and is read by the peer.

A beginning that carries more than the command is not one of them: the opening
`END` of the second frame closes the first, whose CRC is wrong or missing, and
leaves the decoder idle for the rest.  A frame that is too small leaves the
decoder in the command state instead.
-/

namespace DuinoBus.Retry

open DuinoBus.Wire
open DuinoBus.Verified
open DuinoBus.Py

/-- The bytes of a packet on the line: command, data and CRC. -/
def content (crc8 : UInt8 → UInt8 → UInt8) (pkt : Packet) : List UInt8 :=
  pkt.cmd :: (pkt.data ++ [checksum crc8 pkt.cmd pkt.data])

/-- `write_packet` fails with `OS` after `k` bytes were accepted; writing the
packet again, with every byte accepted, succeeds; and a new decoder that reads
the bytes of both returns `NONE` at the last byte, with the command and the
data of the packet. -/
def Retried (crc8 : UInt8 → UInt8 → UInt8) (bus : Bus) (pkt rcvd : Packet)
    (k : Nat) : Prop :=
  ∃ first bus₁ second bus₂ reports,
    bus.writePacket crc8 pkt (List.replicate k true ++ [false]) =
      .ok (.os, first, bus₁) ∧
    bus₁.writePacket crc8 pkt [] = .ok (.none, second, bus₂) ∧
    PacketDecoder.decodeAfter crc8 rcvd first second = .ok reports ∧
    ∃ crc, reports.getLast? = some (.packet pkt.cmd pkt.data crc)

/-- What came through of the first frame, after its opening `END`, completes
no more than the command and ends in no escape; or it ends in an escape, and
its bytes, an `END` and the bytes of the packet again, as far as the decoder
has room, are the bytes of the packet. -/
def Recovers (crc8 : UInt8 → UInt8 → UInt8) (pkt : Packet) (k : Nat) : Prop :=
  (hostReceiver crc8 Packet.MAX_DATA_LEN).Recovers (content crc8 pkt)
    ((slip.stuffAll (content crc8 pkt)).take (k - 1))

/-! ## The places where a write can fail -/

/-- With an escape pending, the decoder does not recover unless the packet
fills it. -/
private theorem not_recovers_escaped {carried c : List UInt8}
    (hc : c.length ≤ Packet.MAX_DATA_LEN) :
    (carried ++ END :: c).take (Packet.MAX_DATA_LEN + 1) ≠ c := by
  intro h
  have hlen := congrArg List.length h
  rw [List.length_take, List.length_append, List.length_cons] at hlen
  omega

/-- **The places that do no harm.**  A packet with fewer than 255 bytes of data
can be written again if no more than the opening `END` came through, or that
and just the command. -/
theorem recovers_iff_position (crc8 : UInt8 → UInt8 → UInt8) (pkt : Packet)
    (k : Nat) (hroom : pkt.data.length < 255) :
    Recovers crc8 pkt k ↔ k ≤ 1 ∨ k = 1 + (slip.stuff pkt.cmd).length := by
  have hlen : (content crc8 pkt).length ≤ Packet.MAX_DATA_LEN := by
    rw [content, List.length_cons, List.length_append, List.length_singleton]
    show pkt.data.length + 1 + 1 ≤ 256
    omega
  have hrecovers : Recovers crc8 pkt k ↔
      slip.pending false ((slip.stuffAll (content crc8 pkt)).take (k - 1)) =
          false ∧
        (slip.unstuff false ((slip.stuffAll (content crc8 pkt)).take
          (k - 1))).length ≤ 1 := by
    show (if slip.pending false _ = false then _ else _) ↔ _
    split
    · next hpending => exact ⟨fun h => ⟨hpending, h⟩, fun h => h.2⟩
    · next hpending =>
        exact iff_of_false (not_recovers_escaped hlen)
          (fun h => hpending h.1)
  have hne : pkt.data ++ [checksum crc8 pkt.cmd pkt.data] ≠ [] := by simp
  have hpositions := slip.take_stuffAll_iff pkt.cmd hne (k - 1)
  have hpos := slip.length_stuff_pos pkt.cmd
  rw [hrecovers, content, hpositions]
  omega

/-! ## Writing again -/

/-- The last report shows a packet exactly if the receiver's last answer
accepts it. -/
private theorem getLast?_report_iff (verdicts : List (Verdict UInt8))
    (cmd crc : UInt8) (data : List UInt8) :
    (verdicts.map Wire.report).getLast? = some (.packet cmd data crc) ↔
      verdicts.getLast? = some (.accepted cmd data crc) := by
  rw [List.getLast?_map]
  cases verdicts.getLast? with
  | none => exact iff_of_false (by intro h; cases h) (by intro h; cases h)
  | some v =>
      rw [Option.map_some, Option.some.injEq, Option.some.injEq]
      constructor
      · intro h
        exact report_injective h
      · intro h
        rw [h]
        rfl

/-- **When a failed write can be retried.**  Whatever the encoder's state, at
every byte that is refused, the packet can be written again and is read by the
peer if and only if the peer recovers from what came through. -/
theorem retried_iff (crc8 : UInt8 → UInt8 → UInt8) (bus : Bus)
    (pkt rcvd : Packet) (k : Nat)
    (hk : k < (frame crc8 pkt.cmd pkt.data).length)
    (hroom : pkt.data.length ≤ 255) :
    Retried crc8 bus pkt rcvd k ↔ Recovers crc8 pkt k := by
  obtain ⟨encoder₁, hfirst⟩ := bus.writePacket_refused crc8 pkt hk
  obtain ⟨encoder₂, hsecond⟩ :=
    Bus.sendCommand_eq crc8 { bus with encoder := encoder₁ } pkt
  rw [Bus.sendCommand] at hsecond
  have hread := PacketDecoder.decodeAfter_eq crc8 rcvd
    ((frame crc8 pkt.cmd pkt.data).take k) (frame crc8 pkt.cmd pkt.data)
  have hiff := (hostReceiver crc8 Packet.MAX_DATA_LEN).retry_iff
    (fun _ => rfl) (fun _ _ => rfl) pkt.cmd pkt.data
    (show pkt.data.length + 1 ≤ 256 by omega) hk
  rw [Recovers, show content crc8 pkt = (hostReceiver crc8
    Packet.MAX_DATA_LEN).content pkt.cmd pkt.data from rfl]
  constructor
  · rintro ⟨first, bus₁, second, bus₂, reports, h₁, h₂, h₃, crc, hlast⟩
    rw [hfirst] at h₁
    cases h₁
    rw [hsecond] at h₂
    cases h₂
    rw [hread] at h₃
    cases h₃
    exact hiff.mp ⟨crc, (getLast?_report_iff _ _ _ _).mp hlast⟩
  · intro hrecovers
    obtain ⟨crc, hlast⟩ := hiff.mpr hrecovers
    exact ⟨_, _, _, _, _, hfirst, hsecond, hread, crc,
      (getLast?_report_iff _ _ _ _).mpr hlast⟩

/-- A write that is refused after the command can be retried. -/
theorem retried_iff_afterCommand :
    Retried crc8Poly07 .new (.new 0x01 [0x02, 0x03]) (.new 0 []) 2 ↔
      Recovers crc8Poly07 (.new 0x01 [0x02, 0x03]) 2 :=
  retried_iff crc8Poly07 .new (.new 0x01 [0x02, 0x03]) (.new 0 []) 2
    (by decide +kernel) (by decide)

/-- A write that is refused after the first byte of data cannot. -/
theorem retried_fails :
    ¬ ∀ (bus : Bus) (pkt rcvd : Packet) (k : Nat),
      k < (frame crc8Poly07 pkt.cmd pkt.data).length →
      pkt.data.length ≤ 255 → Retried crc8Poly07 bus pkt rcvd k := by
  intro h
  have hk : 3 < (frame crc8Poly07 0x01 [0x02, 0x03]).length := by
    decide +kernel
  obtain ⟨first, bus₁, second, bus₂, reports, h₁, h₂, h₃, crc, hlast⟩ :=
    h .new (.new 0x01 [0x02, 0x03]) (.new 0 []) 3 hk (by decide)
  obtain ⟨encoder₁, hfirst⟩ := Bus.new.writePacket_refused crc8Poly07
    (.new 0x01 [0x02, 0x03]) hk
  obtain ⟨encoder₂, hsecond⟩ := Bus.sendCommand_eq crc8Poly07
    { Bus.new with encoder := encoder₁ } (.new 0x01 [0x02, 0x03])
  rw [hfirst] at h₁
  cases h₁
  rw [Bus.sendCommand, h₂] at hsecond
  cases hsecond
  have hread : PacketDecoder.decodeAfter crc8Poly07 (.new 0 [])
      [END, 0x01, 0x02] (frame crc8Poly07 0x01 [0x02, 0x03]) =
      .ok (.code .crc :: List.replicate 5 (.code .notDone)) := by
    decide +kernel
  have hsame : reports = .code .crc :: List.replicate 5 (.code .notDone) :=
    Except.ok.inj (h₃.symm.trans hread)
  rw [hsame] at hlast
  cases hlast

end DuinoBus.Retry
