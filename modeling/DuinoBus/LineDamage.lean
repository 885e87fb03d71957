import DuinoBus.Link
import DuinoBus.Verified.Damage

/-!
# A line that damages frames

The device's `writeByte` drops what `send`, `write` and `tud_cdc_n_write`
return, so `writePacket` returns `NONE` also where bytes did not go out, and
a line may lose or change more of them.  Then the host receives something
else than the frame of a packet.

`damage_contained` says what that costs, for packets of at most 255 data bytes:
one that arrives whole behind one that arrived whole is always reported, so a
packet whose frame is damaged costs at most itself and the next one.
-/

namespace DuinoBus.LineDamage

open DuinoBus.Wire
open DuinoBus.Verified
open DuinoBus.Link

/-- A packet that is sent, and what arrives of its bytes. -/
structure Transmission where
  sender : Sender
  arrived : List UInt8

namespace Transmission

variable (crc8 : UInt8 → UInt8 → UInt8)

/-- Something else has arrived than the encoder wrote. -/
def damaged (t : Transmission) : Bool :=
  match t.sender.encode crc8 with
  | .ok (_, sent) => decide (t.arrived ≠ sent)
  | .error _ => true

/-- The packet is not among what is reported. -/
def missed (t : Transmission) (reports : List Report) : Bool :=
  decide (.packet t.sender.command t.sender.data
    (checksum crc8 t.sender.command t.sender.data) ∉ reports)

/-- The packets that are missed. -/
def misses (ts : List Transmission) (heard : List (List Report)) : Nat :=
  (ts.zip heard).countP fun t => t.1.missed crc8 t.2

/-- The passage of the packet's frame. -/
def passage (t : Transmission) : Passage UInt8 :=
  ⟨t.sender.command, t.sender.data, t.arrived⟩

variable {crc8}

theorem damaged_passage (t : Transmission) :
    t.passage.damaged (framing crc8) = t.damaged crc8 := by
  rw [damaged, t.sender.encode_eq crc8]
  rfl

theorem arrived_of_whole {t : Transmission} (h : t.damaged crc8 = false) :
    t.arrived = t.sender.frame crc8 := by
  rw [damaged, t.sender.encode_eq crc8] at h
  simpa using h

/-- A packet is missed where its passage is. -/
theorem missed_passage (t : Transmission) (answers : List (Verdict UInt8)) :
    t.missed crc8 (answers.map report) =
      t.passage.missed (framing crc8) answers := by
  have hmem : ∀ v : Verdict UInt8,
      report v ∈ answers.map report ↔ v ∈ answers :=
    fun v => List.mem_map_of_injective fun _ _ => report_injective
  rw [missed, Passage.missed, decide_eq_decide, not_iff_not]
  exact hmem (.accepted t.sender.command t.sender.data
    (checksum crc8 t.sender.command t.sender.data))

theorem misses_passage (ts : List Transmission)
    (answers : List (List (Verdict UInt8))) :
    misses crc8 ts (answers.map (List.map report)) =
      Passage.misses (framing crc8) (ts.map passage) answers := by
  rw [misses, Passage.misses, List.zip_map_left, List.zip_map_right,
    List.countP_map, List.countP_map]
  exact List.countP_congr fun t _ => by
    rw [Function.comp_apply, Function.comp_apply]
    exact Bool.eq_iff_iff.mp (missed_passage t.1 t.2)

theorem countP_damaged (ts : List Transmission) :
    (ts.map passage).countP (Passage.damaged (framing crc8)) =
      ts.countP (damaged crc8) := by
  rw [List.countP_map]
  exact congrArg (fun p => ts.countP p) (funext damaged_passage)

end Transmission

open Transmission

variable (crc8 : UInt8 → UInt8 → UInt8)

/-- What is reported of the bytes of each of some packets, by one decoder. -/
def hear (pkt : Py.Packet) (ts : List Transmission) :
    Except Fault (List (List Report)) := do
  let (heard, _) ← feed
    (fun (d : Py.PacketDecoder Py.Packet) bytes => d.decodeAll crc8 bytes)
    (.new pkt) (ts.map Transmission.arrived)
  return heard

theorem hear_eq (pkt : Py.Packet) (ts : List Transmission) :
    hear crc8 pkt ts =
      .ok (((hostReceiver crc8 Py.Packet.MAX_DATA_LEN).machine.piecewise.outputs
        .idle (ts.map Transmission.arrived)).map (List.map report)) := by
  obtain ⟨d, hfeed, _⟩ := (Py.PacketDecoder.simulates crc8).piecewise.feed_eq
    (Py.PacketDecoder.tracks_new pkt) (ts.map Transmission.arrived)
  rw [hear]
  show (do let (heard, _) ← feed (feed (Py.PacketDecoder.decodeReport crc8))
             (.new pkt) (ts.map Transmission.arrived)
           return heard) = _
  rw [hfeed]
  rfl

/-- **Damage on the line is contained.**  Packets that fit are sent one after
the other, and anything arrives of the bytes of each.  The host's decoder does not
raise; it reports a packet that arrives whole, if it is the first or the one
before it arrived whole, and nothing else with it; and it misses at most two
packets for each that is damaged. -/
theorem damage_contained (pkt : Py.Packet) (ts : List Transmission)
    (hroom : ∀ t ∈ ts, t.sender.data.length ≤ Py.Packet.MAX_DATA_LEN - 1) :
    ∃ heard, hear crc8 pkt ts = .ok heard ∧
      (∀ n t, ts[n]? = some t → t.damaged crc8 = false →
        (∀ m s, n = m + 1 → ts[m]? = some s → s.damaged crc8 = false) →
        heard[n]? = some (t.sender.heard crc8 t.arrived)) ∧
      misses crc8 ts heard ≤ 2 * ts.countP (damaged crc8) := by
  have hshort : ∀ c, ((hostReceiver crc8
      Py.Packet.MAX_DATA_LEN).afterShort c).Ready := fun _ => .inr rfl
  have hmismatch : ∀ c b, ((hostReceiver crc8
      Py.Packet.MAX_DATA_LEN).afterMismatch c b).Ready := fun _ _ => .inl rfl
  have hfits : ∀ t ∈ ts.map passage, t.body.length + 1 ≤
      (hostReceiver crc8 Py.Packet.MAX_DATA_LEN).capacity := by
    intro t ht
    obtain ⟨s, hs, rfl⟩ := List.mem_map.mp ht
    exact Nat.succ_le_succ (hroom s hs)
  have harrived : (ts.map passage).map Passage.arrived =
      ts.map Transmission.arrived := List.map_map
  refine ⟨_, hear_eq crc8 pkt ts, ?_, ?_⟩
  · intro n t ht hwhole hbefore
    have hread := Receiver.reads_of_whole
      (hostReceiver crc8 Py.Packet.MAX_DATA_LEN) hshort hmismatch .idle
      (ts.map passage) hfits (n := n) (t := t.passage)
      (by rw [List.getElem?_map, ht]; rfl)
      ((damaged_passage t).trans hwhole) (fun _ => .inl rfl)
      (by
        intro m s hn hs
        rw [List.getElem?_map] at hs
        obtain ⟨r, hr, rfl⟩ := Option.map_eq_some_iff.mp hs
        exact (damaged_passage r).trans (hbefore m r hn hr))
    rw [harrived] at hread
    rw [List.getElem?_map, hread, Option.map_some, arrived_of_whole hwhole,
      Sender.heard_frame]
    exact congrArg some (map_report_reads crc8 t.sender.command t.sender.data)
  · have hle := (Receiver.misses_le
      (hostReceiver crc8 Py.Packet.MAX_DATA_LEN) hshort hmismatch .idle
      (ts.map passage) hfits).2 (.inl rfl)
    rw [harrived] at hle
    rw [misses_passage, ← countP_damaged]
    exact hle

/-- Three packets; the first loses its data byte and its closing `END`. -/
def lossyRun : List Transmission :=
  [⟨.cpp (.new 0) ⟨0x01, 4, 1, [0x07, 0x55, 0x66, 0], 0, rfl⟩ (by decide) 0,
      [END, 0x01, 0x00]⟩,
    ⟨.cpp (.new 0) ⟨0x02, 4, 0, [0x07, 0x55, 0x66, 0], 0, rfl⟩ (by decide) 0,
      [END, 0x02, 0x0E, END]⟩,
    ⟨.cpp (.new 0) ⟨0x03, 4, 0, [0x07, 0x55, 0x66, 0], 0, rfl⟩ (by decide) 0,
      [END, 0x03, 0x09, END]⟩]

/-- The first packet is damaged and the second is missed for it; the third is
reported. -/
theorem damage_contained_lossy :
    ∃ heard, hear crc8Poly07 (.new 0 []) lossyRun = .ok heard ∧
      (∀ n t, lossyRun[n]? = some t → t.damaged crc8Poly07 = false →
        (∀ m s, n = m + 1 → lossyRun[m]? = some s →
          s.damaged crc8Poly07 = false) →
        heard[n]? = some (t.sender.heard crc8Poly07 t.arrived)) ∧
      misses crc8Poly07 lossyRun heard ≤
        2 * lossyRun.countP (damaged crc8Poly07) :=
  damage_contained crc8Poly07 (.new 0 []) lossyRun (by decide)

/-- The bound is met. -/
example :
    (hear crc8Poly07 (.new 0 []) lossyRun).map (misses crc8Poly07 lossyRun) =
        .ok 2 ∧
      lossyRun.countP (damaged crc8Poly07) = 1 := by decide +kernel

end DuinoBus.LineDamage
